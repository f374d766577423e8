import Treewalk.Proofs.Machine.Ends
import Treewalk.Proofs.Semantics.Arithmetic
import Treewalk.Proofs.SideBySide.Store

/-!
# Steps side by side

A `Pairing` is a likeness for whole machines: beside corresponding stores it asks of two machines
what `rest` says. `P.Mirrors R x y` says that the steps `x` and `y`, taken in corresponding
machines, end in the same way and in corresponding machines, with results that `R` relates. A
pairing may excuse a step that runs out of depth, or of rounds, from what the other one does.

`Pairing.Lawful` lists what a pairing must obey so that evaluations go side by side: what the
single changes to a machine do to `rest`, and that corresponding expressions are nodes of one kind
whose parts correspond. The parts of evaluation that take no expression up mirror each other then.
-/

namespace Treewalk

namespace Likeness

variable (L : Likeness)

/-- Whether two calls have the same name and correspond in all that they refer to. -/
structure Frames (c c' : Frame) : Prop where
  name : c.name = c'.name
  params : c.params = c'.params
  body : Option.Rel L.expr c.body c'.body
  scope : L.scope c.scope c'.scope
  args : List.Forall₂ L.Values c.args c'.args
  site : Option.Rel L.expr c.site c'.site

/-- Whether two expressions are nodes of one kind, with corresponding parts. The statements of
chains are not compared, because chains of different lengths may correspond. -/
inductive Nodes : Expr → Expr → Prop where
  | literal {v v' : Value} : L.Values v v' → Nodes (.literal v) (.literal v')
  | var (name : Text) : Nodes (.var name) (.var name)
  | print {a a' : Expr} : L.expr a a' → Nodes (.print a) (.print a')
  | binop (op : Op) {l l' r r' : Expr} : L.expr l l' → L.expr r r' →
    Nodes (.binop op l r) (.binop op l' r')
  | cond {test test' : Expr} {thn thn' els els' : Option Expr} : L.expr test test' →
    Option.Rel L.expr thn thn' → Option.Rel L.expr els els' →
    Nodes (.cond test thn els) (.cond test' thn' els')
  | loop {test test' : Expr} {body body' : Option Expr} : L.expr test test' →
    Option.Rel L.expr body body' → Nodes (.loop test body) (.loop test' body')
  | seq (a b a' b' : Expr) : Nodes (.seq a b) (.seq a' b')
  | decl (name : Text) {a a' : Expr} : L.expr a a' → Nodes (.decl name a) (.decl name a')
  | assign (name : Text) {a a' : Expr} : L.expr a a' → Nodes (.assign name a) (.assign name a')
  | func (params : List Text) {b b' : Option Expr} : Option.Rel L.expr b b' →
    Nodes (.func params b) (.func params b')
  | call {f f' : Expr} {args args' : List Expr} : L.expr f f' →
    List.Forall₂ L.expr args args' → Nodes (.call f args) (.call f' args')

/-- Whether two evaluations end in the same way: with values that correspond, or with faults of the
same kind and wording. -/
inductive Outcomes : Outcome Value → Outcome Value → Prop where
  | done {v v'} : L.Values v v' → Outcomes (.done v) (.done v')
  | failed {f f'} : L.Faults f f' → f.kind = f'.kind → f.message = f'.message →
    Outcomes (.failed f) (.failed f')
  | exhausted : Outcomes .exhausted .exhausted
  | unfinished : Outcomes .unfinished .unfinished

variable {L}

/-- Calls of corresponding callees are entered under the same name. -/
theorem Nodes.calleeName_eq {f f' : Expr} (h : L.Nodes f f') :
    Run.calleeName f = Run.calleeName f' := by
  cases h <;> rfl

end Likeness

/-- What two evaluations that go side by side have in common, and which ends are excused. -/
structure Pairing extends Likeness where
  /-- What is asked of two machines beside corresponding stores. -/
  rest : Machine → Machine → Prop
  /-- Whether the second evaluation may do anything where the first one runs out of depth. -/
  exhaustedFirst : Prop
  /-- Whether the first evaluation may do anything where the second one runs out of depth. -/
  exhaustedSecond : Prop
  /-- Whether the second evaluation may do anything where the first one runs out of rounds. -/
  unfinishedFirst : Prop

namespace Pairing

/-- Whether two machines correspond. -/
structure Machines (P : Pairing) (m m' : Machine) : Prop where
  stores : P.Stores m.store m'.store
  rest : P.rest m m'

/-- Whether two ends of steps correspond. -/
inductive Ends (P : Pairing) {α β : Type} (R : α → β → Prop) :
    Outcome α × Machine → Outcome β × Machine → Prop where
  | done {a b m m'} : R a b → P.Machines m m' → P.Ends R (.done a, m) (.done b, m')
  | failed {f f' m m'} : P.Faults f f' → P.Machines m m' →
    P.Ends R (.failed f, m) (.failed f', m')
  | exhausted {m m'} : P.Machines m m' → P.Ends R (.exhausted, m) (.exhausted, m')
  | unfinished {m m'} : P.Machines m m' → P.Ends R (.unfinished, m) (.unfinished, m')
  | exhaustedFirst {m e'} : P.exhaustedFirst → P.Ends R (.exhausted, m) e'
  | exhaustedSecond {e m'} : P.exhaustedSecond → P.Ends R e (.exhausted, m')
  | unfinishedFirst {m e'} : P.unfinishedFirst → P.Ends R (.unfinished, m) e'

/-- What ends have in common where no end is excused. -/
theorem Ends.outcomes {P : Pairing} {x y : Outcome Value × Machine} (h : P.Ends P.Values x y)
    (hfirst : ¬P.exhaustedFirst) (hsecond : ¬P.exhaustedSecond) (hrounds : ¬P.unfinishedFirst) :
    P.Outcomes x.1 y.1 ∧ P.Machines x.2 y.2 := by
  cases h with
  | done hv hm => exact ⟨.done hv, hm⟩
  | failed hf hm => exact ⟨.failed hf hf.kind_eq hf.message_eq, hm⟩
  | exhausted hm => exact ⟨.exhausted, hm⟩
  | unfinished hm => exact ⟨.unfinished, hm⟩
  | exhaustedFirst h => exact absurd h hfirst
  | exhaustedSecond h => exact absurd h hsecond
  | unfinishedFirst h => exact absurd h hrounds

/-- Whether two steps, taken in corresponding machines, have corresponding ends. -/
def Mirrors (P : Pairing) {α β : Type} (R : α → β → Prop) (x : Run α) (y : Run β) : Prop :=
  ∀ m m', P.Machines m m' → P.Ends R (x m) (y m')

/-- What a pairing must obey so that evaluations go side by side. -/
structure Lawful (P : Pairing) : Prop where
  ordered : P.Ordered
  node : ∀ {e e'}, P.expr e e' → P.Nodes e e'
  look : ∀ {m m' e e'}, P.rest m m' → P.expr e e' →
    P.rest { m with current := .node e } { m' with current := .node e' }
  note : ∀ {m m'} line, P.rest m m' → P.rest (Run.note line m).2 (Run.note line m').2
  writeLine : ∀ {m m'} line, P.rest m m' →
    P.rest (Run.writeLine line m).2 (Run.writeLine line m').2
  push : ∀ {m m' c c'}, P.rest m m' → P.Frames c c' →
    P.rest { m with frames := c :: m.frames } { m' with frames := c' :: m'.frames }
  pop : ∀ {m m'}, P.rest m m' →
    P.rest { m with frames := m.frames.tail } { m' with frames := m'.frames.tail }
  set : ∀ {m m' i i' v v'} name, P.rest m m' → P.scope i i' → P.Values v v' →
    P.rest { m with store := m.store.set i name v } { m' with store := m'.store.set i' name v' }
  alloc : ∀ {m m' o o'}, P.rest m m' → P.scope o o' →
    P.rest { m with store := (m.store.alloc (some o)).2 }
      { m' with store := (m'.store.alloc (some o')).2 }

variable {P : Pairing} {α β α' β' : Type} {R : α → β → Prop} {R' : α' → β' → Prop}

/-- **One step after another.** -/
theorem Mirrors.bind {x : Run α} {y : Run β} {f : α → Run α'} {g : β → Run β'}
    (h : P.Mirrors R x y) (hfg : ∀ a b, R a b → P.Mirrors R' (f a) (g b)) :
    P.Mirrors R' (x >>= f) (y >>= g) := by
  intro m m' hm
  rw [Run.bind_apply, Run.bind_apply]
  have hends := h m m' hm
  generalize x m = e, y m' = e' at hends
  cases hends with
  | done hab hm => exact hfg _ _ hab _ _ hm
  | failed hf hm => exact .failed hf hm
  | exhausted hm => exact .exhausted hm
  | unfinished hm => exact .unfinished hm
  | exhaustedFirst hP => exact .exhaustedFirst hP
  | exhaustedSecond hP => exact .exhaustedSecond hP
  | unfinishedFirst hP => exact .unfinishedFirst hP

theorem mirrors_result {a : α} {b : β} (h : R a b) :
    P.Mirrors R (Run.result a) (Run.result b) :=
  fun _ _ hm => .done h hm

theorem mirrors_fail {f f' : Fault} (h : P.Faults f f') :
    P.Mirrors R (Run.fail f) (Run.fail f') :=
  fun _ _ hm => .failed h hm

namespace Lawful

variable {i i' : ScopeId} {v v' : Value}

theorem mirrors_look (hP : P.Lawful) {e e' : Expr} (h : P.expr e e') :
    P.Mirrors Eq (Run.look e) (Run.look e') :=
  fun _ _ hm => .done rfl ⟨hm.stores, hP.look hm.rest h⟩

theorem mirrors_note (hP : P.Lawful) {line line' : Unit → Text} (h : line () = line' ()) :
    P.Mirrors Eq (Run.note line) (Run.note line') := by
  obtain rfl : line = line' := funext fun _ => h
  intro m m' hm
  have hrest := hP.note line hm.rest
  obtain ⟨trace, hnote⟩ := Run.note_apply line m
  obtain ⟨trace', hnote'⟩ := Run.note_apply line m'
  rw [hnote, hnote'] at hrest ⊢
  exact .done rfl ⟨hm.stores, hrest⟩

theorem mirrors_noteCall (hP : P.Lawful) (name : Text) (params : List Text) {vs vs' : List Value}
    (h : vs.length = vs'.length) :
    P.Mirrors Eq (Run.noteCall name params vs) (Run.noteCall name params vs') := by
  unfold Run.noteCall
  refine (hP.mirrors_note (by rw [h])).bind fun _ _ _ => ?_
  rw [h]
  split
  · exact hP.mirrors_note rfl
  · exact mirrors_result rfl

theorem mirrors_writeLine (hP : P.Lawful) {line line' : Text} (h : line = line') :
    P.Mirrors Eq (Run.writeLine line) (Run.writeLine line') := by
  subst h
  exact fun _ _ hm => .done rfl ⟨hm.stores, hP.writeLine line hm.rest⟩

theorem mirrors_push (hP : P.Lawful) {c c' : Frame} (h : P.Frames c c') :
    P.Mirrors Eq (Run.push c) (Run.push c') :=
  fun _ _ hm => .done rfl ⟨hm.stores, hP.push hm.rest h⟩

theorem mirrors_pop (hP : P.Lawful) : P.Mirrors Eq Run.pop Run.pop :=
  fun _ _ hm => .done rfl ⟨hm.stores, hP.pop hm.rest⟩

theorem mirrors_resolve (hP : P.Lawful) (hi : P.scope i i') (name : Text) :
    P.Mirrors P.Values (Run.resolve i name) (Run.resolve i' name) :=
  fun _ _ hm => .done (hm.stores.resolve hP.ordered hi name) hm

theorem mirrors_update (hP : P.Lawful) (hi : P.scope i i') (name : Text) (hv : P.Values v v') :
    P.Mirrors Eq (Run.update i name v) (Run.update i' name v') := by
  intro m m' hm
  have htarget := hm.stores.target hP.ordered hi name
  exact .done rfl ⟨hm.stores.set hP.ordered htarget name hv, hP.set name hm.rest htarget hv⟩

theorem mirrors_newScope (hP : P.Lawful) (hi : P.scope i i') :
    P.Mirrors P.scope (Run.newScope i) (Run.newScope i') :=
  fun _ _ hm =>
    .done (hm.stores.fresh 0) ⟨hm.stores.alloc hP.ordered hi, hP.alloc hm.rest hi⟩

theorem mirrors_declare (hP : P.Lawful) (hi : P.scope i i') (name : Text) (hv : P.Values v v') :
    P.Mirrors Eq (Run.declare i name v) (Run.declare i' name v') := by
  intro m m' hm
  have hbinds := hm.stores.binds_eq hi name
  cases h : m.store.binds i name with
  | true =>
    rw [Run.declare_of_bound h, Run.declare_of_bound (hbinds ▸ h)]
    exact .failed (.duplicateVariable name) hm
  | false =>
    rw [Run.declare_of_unbound h, Run.declare_of_unbound (hbinds ▸ h)]
    exact .done rfl ⟨hm.stores.set hP.ordered hi name hv, hP.set name hm.rest hi hv⟩

/-- Missing arguments are null on both sides. -/
theorem mirrors_bindParams (hP : P.Lawful) (hi : P.scope i i') (params : List Text)
    {vs vs' : List Value} (h : List.Forall₂ P.Values vs vs') :
    P.Mirrors Eq (Run.bindParams i params vs) (Run.bindParams i' params vs') := by
  induction params generalizing vs vs' with
  | nil => exact mirrors_result rfl
  | cons p ps ih =>
    rw [Run.bindParams_cons, Run.bindParams_cons]
    cases h with
    | nil => exact (hP.mirrors_declare hi p .null).bind fun _ _ _ => ih .nil
    | cons hv hvs => exact (hP.mirrors_declare hi p hv).bind fun _ _ _ => ih hvs

end Lawful

theorem mirrors_combine (op : Op) {v v' w w' : Value} (hv : P.Values v v') (hw : P.Values w w') :
    P.Mirrors P.Values (Run.combine op v w) (Run.combine op v' w') := by
  have hfault := Likeness.Faults.operandsNotInts op hv hw
  cases hv with
  | int a =>
    cases hw with
    | int b =>
      unfold Run.combine
      dsimp only
      cases hc : op.compute a b with
      | none => exact mirrors_fail (.divisionByZero op a)
      | some u =>
        -- What the operators compute is no closure.
        refine mirrors_result ?_
        cases Op.computes_iff.mpr hc <;> constructor
    | bool | null | closure => exact mirrors_fail hfault
  | bool | null | closure => exact mirrors_fail hfault

theorem mirrors_demandBool (construct : Construct) {v v' : Value} (hv : P.Values v v') :
    P.Mirrors Eq (Run.demandBool construct v) (Run.demandBool construct v') := by
  have hfault := Likeness.Faults.conditionNotBool construct hv
  cases hv with
  | bool b => exact mirrors_result rfl
  | int | null | closure => exact mirrors_fail hfault

end Pairing

end Treewalk
