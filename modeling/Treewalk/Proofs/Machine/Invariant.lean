import Treewalk.Proofs.Machine.Ends
import Treewalk.Proofs.Syntax.Within

/-!
# Invariants of evaluation

An `Invariant` says what is to hold of a machine, of the expressions that are evaluated, of the
values that come about, and of the scopes that calls make for their parameters. `Invariant.Lawful`
lists what each single change to a machine must keep of it. A lawful invariant is kept by a whole
evaluation, however that ends (`Invariant.Lawful.maintains_eval`), and by a call
(`Invariant.Lawful.maintains_callClosure`).

The laws tell declarations, assignments and parameters apart, so that an invariant may ask for less
where a name is bound in a scope that was made for a call.
-/

namespace Treewalk

/-- What should hold throughout an evaluation. -/
structure Invariant where
  holds : Machine → Prop
  expr : Expr → Prop
  value : Value → Prop
  /-- The scopes in which parameters may be bound. -/
  inner : ScopeId → Prop

/-- What an invariant must obey so that evaluation keeps it. -/
structure Invariant.Lawful (I : Invariant) : Prop where
  hereditary : Expr.Hereditary I.expr
  literal : ∀ {v}, I.expr (.literal v) → I.value v
  func : ∀ {params body} scope, I.expr (.func params body) → I.value (.closure params body scope)
  body : ∀ {params body scope}, I.value (.closure params (some body) scope) → I.expr body
  null : I.value .null
  computed : ∀ {op a b v}, Op.compute op a b = some v → I.value v
  resolve : ∀ {m} scope name, I.holds m → I.value (m.store.resolve scope name)
  look : ∀ {m} d, I.holds m → I.holds { m with current := d }
  note : ∀ {m} trace, I.holds m → I.holds { m with trace := trace }
  writeLine : ∀ {m} line, I.holds m → I.holds (Run.writeLine line m).2
  declare : ∀ {m name init v} scope, I.holds m → I.expr (.decl name init) → I.value v →
    I.holds { m with store := m.store.set scope name v }
  update : ∀ {m name rhs v} scope, I.holds m → I.expr (.assign name rhs) → I.value v →
    I.holds { m with store := m.store.update scope name v }
  newScope : ∀ {m} outer, I.holds m →
    I.inner m.store.size ∧ I.holds { m with store := (m.store.alloc (some outer)).2 }
  bind : ∀ {m scope v} param, I.holds m → I.inner scope → I.value v →
    I.holds { m with store := m.store.set scope param v }
  push : ∀ {m params body scope args} name site, I.holds m → I.value (.closure params body scope) →
    (∀ v ∈ args, I.value v) →
    I.holds { m with frames := ⟨name, params, body, scope, args, site⟩ :: m.frames }
  pop : ∀ {m}, I.holds m → I.holds { m with frames := m.frames.tail }

namespace Run

variable {α β : Type}

/-- Whether a step keeps an invariant, with a result of which `Q` holds. -/
def Maintains (x : Run α) (I : Invariant) (Q : α → Prop) : Prop :=
  ∀ m, I.holds m → I.holds (x m).2 ∧ ∀ a, (x m).1 = .done a → Q a

section

variable {I : Invariant} {x : Run α} {f : α → Run β} {Q : α → Prop} {R : β → Prop}

/-- **One step after another.** -/
theorem Maintains.bind (h : x.Maintains I Q) (hf : ∀ a, Q a → (f a).Maintains I R) :
    (x >>= f).Maintains I R := by
  intro m hm
  obtain ⟨hm', hresult⟩ := h m hm
  rw [bind_apply]
  rcases hx : x m with ⟨a | fault | _ | _, m'⟩ <;> rw [hx] at hm' hresult
  · exact hf a (hresult a rfl) m' hm'
  · exact ⟨hm', nofun⟩
  · exact ⟨hm', nofun⟩
  · exact ⟨hm', nofun⟩

theorem maintains_result {a : α} (h : Q a) : (result a).Maintains I Q := by
  refine fun m hm => ⟨hm, ?_⟩
  rintro _ ⟨⟩
  exact h

theorem maintains_fail (fault : Fault) : (fail fault : Run α).Maintains I Q :=
  fun _ hm => ⟨hm, nofun⟩

theorem maintains_change {g : Machine → Machine} (h : ∀ m, I.holds m → I.holds (g m)) :
    (change g).Maintains I fun _ => True :=
  fun m hm => ⟨h m hm, fun _ _ => trivial⟩

end

end Run

namespace Invariant

open Run

variable {I : Invariant}

/-! ## Single steps -/

section

variable {scope : ScopeId} {name : Text} {v w : Value}

theorem maintains_demandBool (construct : Construct) (v : Value) :
    (demandBool construct v).Maintains I fun _ => True := by
  cases v with
  | bool b => exact maintains_result trivial
  | int | null | closure => exact maintains_fail _

namespace Lawful

variable (hI : I.Lawful)

include hI

theorem maintains_look (e : Expr) : (Run.look e).Maintains I fun _ => True :=
  maintains_change fun _ => hI.look _

theorem maintains_note (line : Unit → Text) : (Run.note line).Maintains I fun _ => True := by
  intro m hm
  obtain ⟨trace, h⟩ := note_apply line m
  rw [h]
  exact ⟨hI.note trace hm, fun _ _ => trivial⟩

theorem maintains_noteCall (name : Text) (params : List Text) (args : List Value) :
    (noteCall name params args).Maintains I fun _ => True := by
  refine (hI.maintains_note _).bind fun _ _ => ?_
  split
  · exact hI.maintains_note _
  · exact maintains_result trivial

theorem maintains_writeLine (line : Text) : (Run.writeLine line).Maintains I fun _ => True :=
  maintains_change fun _ => hI.writeLine line

theorem maintains_resolve (scope : ScopeId) (name : Text) :
    (Run.resolve scope name).Maintains I I.value := by
  refine fun m hm => ⟨hm, ?_⟩
  rintro _ ⟨⟩
  exact hI.resolve scope name hm

theorem maintains_update {rhs : Expr} (scope : ScopeId) (he : I.expr (.assign name rhs))
    (hv : I.value v) : (Run.update scope name v).Maintains I fun _ => True :=
  maintains_change fun _ hm => hI.update scope hm he hv

theorem maintains_newScope (outer : ScopeId) : (Run.newScope outer).Maintains I I.inner := by
  intro m hm
  obtain ⟨hinner, hm'⟩ := hI.newScope outer hm
  refine ⟨hm', ?_⟩
  rintro _ ⟨⟩
  exact hinner

omit hI in
/-- Binding a name that the scope does not bind keeps what setting it keeps. -/
theorem maintains_declare (hset : ∀ m, I.holds m →
    I.holds { m with store := m.store.set scope name v }) :
    (Run.declare scope name v).Maintains I fun _ => True := by
  intro m hm
  cases h : m.store.binds scope name with
  | true =>
    rw [declare_of_bound h]
    exact ⟨hm, nofun⟩
  | false =>
    rw [declare_of_unbound h]
    exact ⟨hset m hm, fun _ _ => trivial⟩

theorem maintains_bindParams (hscope : I.inner scope) (params : List Text) {args : List Value}
    (hargs : ∀ v ∈ args, I.value v) :
    (bindParams scope params args).Maintains I fun _ => True := by
  induction params generalizing args with
  | nil => exact maintains_result trivial
  | cons p ps ih =>
    rw [bindParams_cons]
    have hhead : I.value (args.headD .null) := by
      cases args with
      | nil => exact hI.null
      | cons v vs => exact hargs v List.mem_cons_self
    refine (maintains_declare fun m hm => hI.bind p hm hscope hhead).bind fun _ _ => ih ?_
    exact fun v hv => hargs v (List.mem_of_mem_tail hv)

theorem maintains_combine (op : Op) (v w : Value) : (combine op v w).Maintains I I.value := by
  unfold combine
  split
  · rename_i a b
    cases h : op.compute a b with
    | none => exact maintains_fail _
    | some u => exact maintains_result (hI.computed h)
  · exact maintains_fail _

end Lawful

end

/-! ## Parts of evaluation -/

/-- Whether an evaluator keeps an invariant for the expressions of which it speaks. -/
def IsKeptBy (I : Invariant) (ev : Expr → ScopeId → Run Value) : Prop :=
  ∀ e scope, I.expr e → (ev e scope).Maintains I I.value

namespace Lawful

section

variable {ev : Expr → ScopeId → Run Value} {scope : ScopeId} (hI : I.Lawful) (hev : I.IsKeptBy ev)

include hI hev

theorem maintains_evalBlock {b : Option Expr} (hb : ∀ e, b = some e → I.expr e)
    (scope : ScopeId) : (evalBlock ev b scope).Maintains I I.value := by
  cases b with
  | none => exact maintains_result hI.null
  | some e => exact hev e scope (hb e rfl)

omit hI in
theorem maintains_evalStatements {es : List Expr} (hes : ∀ e ∈ es, I.expr e) {last : Value}
    (hlast : I.value last) : (evalStatements ev scope last es).Maintains I I.value := by
  induction es generalizing last with
  | nil => exact maintains_result hlast
  | cons e es ih =>
    obtain ⟨he, hes⟩ := List.forall_mem_cons.mp hes
    exact (hev e scope he).bind fun v hv => ih hes hv

omit hI in
theorem maintains_evalArgs {es : List Expr} (hes : ∀ e ∈ es, I.expr e) :
    (evalArgs ev scope es).Maintains I fun vs => ∀ v ∈ vs, I.value v := by
  induction es with
  | nil => exact maintains_result nofun
  | cons e es ih =>
    obtain ⟨he, hes⟩ := List.forall_mem_cons.mp hes
    refine (hev e scope he).bind fun v hv => (ih hes).bind fun vs hvs => ?_
    exact maintains_result (List.forall_mem_cons.mpr ⟨hv, hvs⟩)

theorem maintains_evalLoop {test : Expr} {body : Option Expr} (htest : I.expr test)
    (hbody : ∀ e, body = some e → I.expr e) (rounds count : Nat) {last : Value}
    (hlast : I.value last) :
    (evalLoop ev test body scope rounds count last).Maintains I I.value := by
  induction rounds generalizing count last with
  | zero => exact fun _ hm => ⟨hm, nofun⟩
  | succ rounds ih =>
    refine (hev test scope htest).bind fun c _ => ?_
    refine (maintains_demandBool .loop c).bind fun holds _ => ?_
    cases holds with
    | true =>
      exact (hI.maintains_evalBlock hev hbody scope).bind fun v hv => ih (count + 1) hv
    | false => exact (hI.maintains_note _).bind fun _ _ => maintains_result hlast

/-- **A call keeps a lawful invariant**, if its closure and its arguments are values of it. -/
theorem maintains_callClosure (site : Option Expr) (name : Text) {params : List Text}
    {body : Option Expr} {outer : ScopeId} (hclosure : I.value (.closure params body outer))
    {args : List Value} (hargs : ∀ v ∈ args, I.value v) :
    (callClosure ev site name params body outer args).Maintains I I.value := by
  have hbody : ∀ e, body = some e → I.expr e := by
    rintro e rfl
    exact hI.body hclosure
  have hpush : (Run.push ⟨name, params, body, outer, args, site⟩).Maintains I fun _ => True :=
    maintains_change fun _ hm => hI.push name site hm hclosure hargs
  have hpop : Run.pop.Maintains I fun _ => True := maintains_change fun _ hm => hI.pop hm
  rw [callClosure_eq]
  refine (hI.maintains_noteCall name params args).bind fun _ _ => hpush.bind fun _ _ => ?_
  refine Maintains.bind (Q := I.value) ?_ fun v hv => hpop.bind fun _ _ => maintains_result hv
  refine (hI.maintains_newScope outer).bind fun inner hinner => ?_
  refine (hI.maintains_bindParams hinner params hargs).bind fun _ _ => ?_
  exact hI.maintains_evalBlock hev hbody inner

end

/-! ## Expressions -/

/-- **Evaluation keeps a lawful invariant**, and gives a value of it. -/
theorem maintains_eval (hI : I.Lawful) (rounds depth : Nat) : I.IsKeptBy (eval rounds depth) := by
  induction depth with
  | zero => exact fun _ _ _ _ hm => ⟨hm, nofun⟩
  | succ depth hev =>
    intro e scope he
    have hpart : ∀ {p : Expr}, p.Child e → I.expr p := fun hp => hI.hereditary (.child hp) he
    unfold eval
    refine (hI.maintains_look e).bind fun _ _ => ?_
    cases e with
    | literal v => exact maintains_result (hI.literal he)
    | var name => exact hI.maintains_resolve scope name
    | print a =>
      refine (hev a scope (hpart .print)).bind fun v hv => ?_
      exact (hI.maintains_writeLine v.text).bind fun _ _ => maintains_result hv
    | binop op l r =>
      refine (hev l scope (hpart .left)).bind fun v _ => ?_
      refine (hev r scope (hpart .right)).bind fun w _ => ?_
      exact (hI.maintains_look _).bind fun _ _ => hI.maintains_combine op v w
    | cond test thn els =>
      refine (hev test scope (hpart .choiceTest)).bind fun c _ => ?_
      refine (maintains_demandBool .choice c).bind fun holds _ => ?_
      cases holds with
      | true =>
        refine hI.maintains_evalBlock hev ?_ scope
        rintro _ rfl
        exact hpart .thn
      | false =>
        refine hI.maintains_evalBlock hev ?_ scope
        rintro _ rfl
        exact hpart .els
    | loop test body =>
      refine hI.maintains_evalLoop hev (hpart .loopTest) ?_ rounds 0 hI.null
      rintro _ rfl
      exact hpart .body
    | seq a b =>
      exact maintains_evalStatements hev (Expr.Hereditary.statements hI.hereditary he) hI.null
    | decl name init =>
      refine (hev init scope (hpart .init)).bind fun v hv => ?_
      refine (hI.maintains_look _).bind fun _ _ => ?_
      refine (maintains_declare fun m hm => hI.declare scope hm he hv).bind fun _ _ => ?_
      exact (hI.maintains_note _).bind fun _ _ => hI.maintains_resolve scope name
    | assign name rhs =>
      refine (hev rhs scope (hpart .rhs)).bind fun v hv => ?_
      refine (hI.maintains_update scope he hv).bind fun _ _ => ?_
      exact (hI.maintains_note _).bind fun _ _ => hI.maintains_resolve scope name
    | func params body => exact maintains_result (hI.func scope he)
    | call callee args =>
      refine (hev callee scope (hpart .callee)).bind fun f hf => ?_
      cases f with
      | closure params body outer =>
        refine (maintains_evalArgs hev fun arg harg => hpart (.arg harg)).bind fun vs hvs => ?_
        exact hI.maintains_callClosure hev _ _ hf hvs
      | int | bool | null => exact (hI.maintains_look _).bind fun _ _ => maintains_fail _

end Lawful

end Invariant

end Treewalk
