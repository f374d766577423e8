import Treewalk.Proofs.SideBySide.Eval
import Treewalk.Proofs.Syntax.Within

/-!
# Evaluation beside itself

The plainest pairing compares evaluations of one expression in one machine (`Pairing.itself`). Only
the bounds may differ. The expressions have a property that all that lies within them has, too, and
so the bodies of all closures that come about have it.

Two facts are read off this pairing: what greater bounds change, and what holds of the bodies of
all closures in a store.

`Pairing.sharing` compares evaluations of one expression in two machines that share a store and may
differ in anything else. They end alike as long as the machines differ only in what single steps do
not read.
-/

namespace Treewalk

/-- Whether the body of a value has a property, if the value is a closure with a body. -/
def Value.BodyIs (Q : Expr → Prop) : Value → Prop
  | .closure _ (some b) _ => Q b
  | _ => True

/-- Whether the bodies of all closures that scopes bind have a property. -/
def Store.BodiesAre (Q : Expr → Prop) (s : Store) : Prop :=
  ∀ i scope, s.get? i = some scope → ∀ b ∈ scope.bindings, b.2.BodyIs Q

theorem Value.BodyIs.imp {P Q : Expr → Prop} (hPQ : ∀ e, P e → Q e) {v : Value}
    (h : v.BodyIs P) : v.BodyIs Q := by
  unfold Value.BodyIs at h ⊢
  split
  · exact hPQ _ h
  · trivial

theorem Store.BodiesAre.imp {P Q : Expr → Prop} (hPQ : ∀ e, P e → Q e) {s : Store}
    (h : s.BodiesAre P) : s.BodiesAre Q :=
  fun i scope hscope b hb => (h i scope hscope b hb).imp hPQ

/-- What all expressions have, the body of a value has. -/
theorem Value.bodyIs_of_forall {Q : Expr → Prop} (h : ∀ e, Q e) (v : Value) : v.BodyIs Q := by
  unfold Value.BodyIs
  split
  · exact h _
  · trivial

/-- What all expressions have, the bodies in a store have. -/
theorem Store.bodiesAre_of_forall {Q : Expr → Prop} (h : ∀ e, Q e) (s : Store) : s.BodiesAre Q :=
  fun _ _ _ b _ => b.2.bodyIs_of_forall h

theorem rel_self {α : Type} {R : α → α → Prop} {x : Option α} (h : ∀ a, x = some a → R a a) :
    Option.Rel R x x := by
  cases x with
  | none => exact .none
  | some a => exact .some (h a rfl)

namespace Likeness

/-- The likeness of equal scopes and of equal expressions that have a property. -/
def same (Q : Expr → Prop) : Likeness := ⟨fun e e' => e = e' ∧ Q e, Eq⟩

variable {expr : Expr → Expr → Prop} {Q : Expr → Prop} {s : Store} {v v' : Value}

/-- A value corresponds to itself if its body does. -/
theorem values_self (h : v.BodyIs fun b => expr b b) : (Likeness.mk expr Eq).Values v v := by
  cases v with
  | int n => exact .int n
  | bool b => exact .bool b
  | null => exact .null
  | closure params b i =>
    refine .closure params (rel_self ?_) rfl
    rintro _ rfl
    exact h

/-- A store corresponds to itself if the bodies in it do. -/
theorem stores_self (h : s.BodiesAre fun b => expr b b) : (Likeness.mk expr Eq).Stores s s where
  scopes := by
    rintro i _ rfl
    refine rel_self fun scope hscope => ⟨rel_self fun _ _ => rfl, ?_⟩
    exact List.forall₂_same.mpr fun b hb => ⟨rfl, values_self (h i scope hscope b hb)⟩
  fresh _ := rfl

theorem ordered_same : (same Q).Ordered := by
  rintro i _ o _ rfl rfl
  exact Iff.rfl

theorem bodyIs_of_values (h : (same Q).Values v v') :
    v = v' ∧ v.BodyIs Q := by
  cases h with
  | int | bool | null => exact ⟨rfl, trivial⟩
  | closure params hb hi =>
    subst hi
    cases hb with
    | none => exact ⟨rfl, trivial⟩
    | some hb =>
      obtain ⟨rfl, hQ⟩ := hb
      exact ⟨rfl, hQ⟩

theorem eq_of_rel {b b' : Option Expr} (h : Option.Rel (fun e e' => e = e' ∧ Q e) b b') :
    b = b' := by
  cases h with
  | none => rfl
  | some h => rw [h.1]

/-- Calls that correspond are equal. -/
theorem eq_of_frames {c c' : Frame}
    (h : (same Q).Frames c c') : c = c' := by
  obtain ⟨name, params, body, scope, args, site⟩ := c
  obtain ⟨name', params', body', scope', args', site'⟩ := c'
  have hargs : args = args' :=
    List.forall₂_eq_eq_eq ▸ h.args.imp fun _ _ hv => (bodyIs_of_values hv).1
  rw [show name = name' from h.name, show params = params' from h.params,
    show scope = scope' from h.scope, show body = body' from eq_of_rel h.body,
    show site = site' from eq_of_rel h.site, hargs]

theorem eq_of_faults {f f' : Fault} (h : (same Q).Faults f f') : f = f' := by
  cases h with
  | duplicateVariable | divisionByZero | notCallable => rfl
  | conditionNotBool construct hv => rw [(bodyIs_of_values hv).1]
  | operandsNotInts op hv hw => rw [(bodyIs_of_values hv).1, (bodyIs_of_values hw).1]

/-- Evaluations that end in the same way have equal outcomes. -/
theorem eq_of_outcomes {o o' : Outcome Value} (h : (same Q).Outcomes o o') : o = o' := by
  cases h with
  | done hv => rw [(bodyIs_of_values hv).1]
  | failed hf => rw [eq_of_faults hf]
  | exhausted | unfinished => rfl

/-- The bodies in a store have a property just if the store corresponds to itself. -/
theorem stores_same_iff : (same Q).Stores s s ↔ s.BodiesAre Q := by
  refine ⟨fun h i scope hscope b hb => ?_, fun h => stores_self (h.imp fun _ hQ => ⟨rfl, hQ⟩)⟩
  have hrel := h.scopes i i rfl
  rw [hscope] at hrel
  cases hrel with
  | some hscopes =>
    have hself : ∀ b ∈ scope.bindings, (same Q).Bindings b b :=
      List.forall₂_same.mp hscopes.bindings
    exact (bodyIs_of_values (hself b hb).2).2

/-- An expression corresponds to itself if all that lies within it does. -/
theorem nodes_self {L : Likeness} {e : Expr} (hparts : ∀ p, p.Within e → L.expr p p)
    (hscopes : ∀ params b i, e = .literal (.closure params b i) → L.scope i i) : L.Nodes e e := by
  have hchild : ∀ {p : Expr}, p.Child e → L.expr p p := fun hp => hparts _ (.child hp)
  cases e with
  | literal v =>
    refine .literal ?_
    cases v with
    | int n => exact .int n
    | bool b => exact .bool b
    | null => exact .null
    | closure params b i =>
      refine .closure params (rel_self ?_) (hscopes params b i rfl)
      rintro _ rfl
      exact hparts _ .closure
  | var x => exact .var x
  | print a => exact .print (hchild .print)
  | binop op l r => exact .binop op (hchild .left) (hchild .right)
  | cond test thn els =>
    refine .cond (hchild .choiceTest) (rel_self ?_) (rel_self ?_)
    · rintro _ rfl
      exact hchild .thn
    · rintro _ rfl
      exact hchild .els
  | loop test body =>
    refine .loop (hchild .loopTest) (rel_self ?_)
    rintro _ rfl
    exact hchild .body
  | seq a b => exact .seq a b a b
  | decl x a => exact .decl x (hchild .init)
  | assign x a => exact .assign x (hchild .rhs)
  | func params body =>
    refine .func params (rel_self ?_)
    rintro _ rfl
    exact hparts _ .body
  | call f args =>
    exact .call (hchild .callee) (List.forall₂_same.mpr fun a ha => hchild (.arg ha))

/-- An expression with a hereditary property corresponds to itself. -/
theorem nodes_of_same (hQ : Expr.Hereditary Q) {e e' : Expr} (h : (same Q).expr e e') :
    (same Q).Nodes e e' := by
  obtain ⟨rfl, h⟩ := h
  exact nodes_self (fun p hp => ⟨rfl, hQ hp h⟩) fun _ _ _ _ => rfl

/-- A chain corresponds to itself only, and so do its parts. -/
theorem exists_seq_of_same (hQ : Expr.Hereditary Q) {a b e' : Expr}
    (h : (same Q).expr (.seq a b) e') :
    ∃ a' b', e' = .seq a' b' ∧ (same Q).expr a a' ∧ (same Q).expr b b' := by
  obtain ⟨rfl, h⟩ := h
  exact ⟨a, b, rfl, ⟨rfl, hQ (.child .first) h⟩, ⟨rfl, hQ (.child .second) h⟩⟩

end Likeness

namespace Pairing

/-- The pairing of a machine with itself, for expressions with a property; the first evaluation may
run out of depth, or of rounds, earlier than the second one if that is said. -/
def itself (Q : Expr → Prop) (exhausted unfinished : Prop) : Pairing where
  toLikeness := .same Q
  rest := Eq
  exhaustedFirst := exhausted
  exhaustedSecond := False
  unfinishedFirst := unfinished

variable {Q : Expr → Prop} {exhausted unfinished : Prop}

theorem lawful_itself (hQ : Expr.Hereditary Q) : (itself Q exhausted unfinished).Lawful where
  ordered := Likeness.ordered_same
  node := Likeness.nodes_of_same hQ
  look := by
    rintro m _ e _ rfl ⟨rfl, -⟩
    rfl
  note := by
    rintro m _ line rfl
    rfl
  writeLine := by
    rintro m _ line rfl
    rfl
  push := by
    rintro m _ c c' rfl hc
    show { m with frames := c :: m.frames } = { m with frames := c' :: m.frames }
    rw [Likeness.eq_of_frames hc]
  pop := by
    rintro m _ rfl
    rfl
  set := by
    rintro m _ i _ v v' name rfl rfl hv
    obtain ⟨rfl, -⟩ := Likeness.bodyIs_of_values hv
    rfl
  alloc := by
    rintro m _ o _ rfl rfl
    rfl

/-- Ends that correspond are equal, unless one of the bounds was used up. -/
theorem eq_of_ends {x y : Outcome Value × Machine}
    (h : (itself Q exhausted unfinished).Ends (Likeness.same Q).Values x y) :
    x = y ∨ (exhausted ∧ x.1 = .exhausted) ∨ (unfinished ∧ x.1 = .unfinished) := by
  cases h with
  | done hv hm =>
    obtain ⟨rfl, -⟩ := Likeness.bodyIs_of_values hv
    obtain rfl := hm.rest
    exact .inl rfl
  | failed hf hm =>
    obtain rfl := Likeness.eq_of_faults hf
    obtain rfl := hm.rest
    exact .inl rfl
  | exhausted hm | unfinished hm =>
    obtain rfl := hm.rest
    exact .inl rfl
  | exhaustedFirst h => exact .inr (.inl ⟨h, rfl⟩)
  | exhaustedSecond h => exact h.elim
  | unfinishedFirst h => exact .inr (.inr ⟨h, rfl⟩)

/-- **Evaluation beside itself.** The evaluations of one expression mirror each other, and all that
they take up and leave behind has the property. -/
theorem mirrors_itself (hQ : Expr.Hereditary Q) {rounds rounds' depth depth' : Nat}
    (hr : Fits unfinished rounds rounds') (hd : Fits exhausted depth depth') {e : Expr} (he : Q e)
    (scope : ScopeId) :
    (itself Q exhausted unfinished).Mirrors (Likeness.same Q).Values
      (Run.eval rounds depth e scope) (Run.eval rounds' depth' e scope) :=
  (lawful_itself hQ).mirrors_eval (Likeness.exists_seq_of_same hQ) hr hd e e scope scope
    ⟨rfl, he⟩ rfl

/-! ## Machines on one store -/

/-- The pairing of evaluations of one expression in machines on one store. -/
def sharing (rest : Machine → Machine → Prop) : Pairing where
  toLikeness := .same fun _ => True
  rest := rest
  exhaustedFirst := False
  exhaustedSecond := False
  unfinishedFirst := False

section

variable {rest : Machine → Machine → Prop}

/-- A relation that is kept by each change to both machines. -/
theorem lawful_sharing
    (look : ∀ {m m'} e, rest m m' →
      rest { m with current := .node e } { m' with current := .node e })
    (note : ∀ {m m'} line, rest m m' → rest (Run.note line m).2 (Run.note line m').2)
    (writeLine : ∀ {m m'} line, rest m m' →
      rest (Run.writeLine line m).2 (Run.writeLine line m').2)
    (push : ∀ {m m'} call, rest m m' →
      rest { m with frames := call :: m.frames } { m' with frames := call :: m'.frames })
    (pop : ∀ {m m'}, rest m m' →
      rest { m with frames := m.frames.tail } { m' with frames := m'.frames.tail })
    (set : ∀ {m m'} i name v, rest m m' →
      rest { m with store := m.store.set i name v } { m' with store := m'.store.set i name v })
    (alloc : ∀ {m m'} o, rest m m' →
      rest { m with store := (m.store.alloc (some o)).2 }
        { m' with store := (m'.store.alloc (some o)).2 }) :
    (sharing rest).Lawful where
  ordered := Likeness.ordered_same
  node := Likeness.nodes_of_same Expr.hereditary_true
  look := by
    rintro m m' e _ h ⟨rfl, -⟩
    exact look e h
  note line h := note line h
  writeLine line h := writeLine line h
  push := by
    rintro m m' c c' h hc
    obtain rfl := Likeness.eq_of_frames hc
    exact push c h
  pop h := pop h
  set := by
    rintro m m' i _ v v' name h rfl hv
    obtain ⟨rfl, -⟩ := Likeness.bodyIs_of_values hv
    exact set i name v h
  alloc := by
    rintro m m' o _ h rfl
    exact alloc o h

/-- Steps that mirror each other end alike in machines on one store. -/
theorem Mirrors.alike {x y : Run Value} (h : (sharing rest).Mirrors (sharing rest).Values x y)
    {m m' : Machine} (hstore : m'.store = m.store) (hrest : rest m m') :
    ∃ outcome m₁ m₁', x m = (outcome, m₁) ∧ y m' = (outcome, m₁') ∧ rest m₁ m₁' := by
  have hstores : (Likeness.same fun _ => True).Stores m.store m'.store := by
    rw [hstore]
    exact Likeness.stores_same_iff.mpr (m.store.bodiesAre_of_forall fun _ => trivial)
  obtain ⟨houtcomes, -, hrest⟩ := (h m m' ⟨hstores, hrest⟩).outcomes id id id
  have heq : (x m).1 = (y m').1 := Likeness.eq_of_outcomes houtcomes
  exact ⟨_, _, (y m').2, rfl, Prod.ext heq.symm rfl, hrest⟩

theorem Lawful.evaluatorsMirror_sharing (hP : (sharing rest).Lawful) (rounds depth : Nat) :
    (sharing rest).EvaluatorsMirror (Run.eval rounds depth) (Run.eval rounds depth) :=
  hP.mirrors_eval (Likeness.exists_seq_of_same Expr.hereditary_true) (.refl rounds) (.refl depth)

/-- **Evaluations in machines on one store** end alike. -/
theorem Lawful.eval_alike (hP : (sharing rest).Lawful) {m m' : Machine}
    (hstore : m'.store = m.store) (hrest : rest m m') (rounds depth : Nat) (e : Expr)
    (scope : ScopeId) :
    ∃ outcome m₁ m₁', Run.eval rounds depth e scope m = (outcome, m₁) ∧
      Run.eval rounds depth e scope m' = (outcome, m₁') ∧ rest m₁ m₁' :=
  (hP.evaluatorsMirror_sharing rounds depth e e scope scope ⟨rfl, trivial⟩ rfl).alike hstore hrest

end

end Pairing

end Treewalk
