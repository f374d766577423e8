import Treewalk.Proofs.Machine.Visits

/-!
# Accounts of evaluations

What a step does is often told by the evaluations that it makes, and by nothing else: what it
prints, say, or whether it runs out of depth. An `Account` is such a statement about a step and the
list of its evaluations. `Account.Lawful` lists what it owes for the single steps of the machine, of
which no evaluation is part, for an evaluation, and for one step after another. A lawful account
holds of the parts from which evaluation is put together (`Account.Lawful.callClosure`), and of all
evaluations that print nothing by themselves (`Account.Lawful.eval`).
-/

namespace Treewalk

/-- What may be said of a step and of the evaluations that it makes in a machine. -/
structure Account where
  holds : ∀ {α : Type}, Run α → (Machine → List Visit) → Prop

open Run

/-- What an account must obey if parts are evaluated by an evaluator. -/
structure Account.Lawful (A : Account) (ev : Expr → ScopeId → Run Value) : Prop where
  visit : ∀ e scope, A.holds (ev e scope) fun m => [⟨e, scope, m⟩]
  bind : ∀ {α β : Type} {x : Run α} {y : α → Run β} {f : Machine → List Visit}
    {g : α → Machine → List Visit}, A.holds x f → (∀ a, A.holds (y a) (g a)) →
    A.holds (x >>= y) fun m => f m ++ x.after g m
  result : ∀ {α : Type} (a : α), A.holds (Run.result a) fun _ => []
  fail : ∀ {α : Type} (fault : Fault), A.holds (Run.fail fault : Run α) fun _ => []
  suspend : ∀ {α : Type}, A.holds (Run.suspend : Run α) fun _ => []
  look : ∀ e, A.holds (Run.look e) fun _ => []
  note : ∀ line, A.holds (Run.note line) fun _ => []
  resolve : ∀ scope name, A.holds (Run.resolve scope name) fun _ => []
  declare : ∀ scope name v, A.holds (Run.declare scope name v) fun _ => []
  update : ∀ scope name v, A.holds (Run.update scope name v) fun _ => []
  newScope : ∀ outer, A.holds (Run.newScope outer) fun _ => []
  push : ∀ call, A.holds (Run.push call) fun _ => []
  pop : A.holds Run.pop fun _ => []

theorem Run.after_nil {α : Type} (x : Run α) (m : Machine) :
    x.after (fun _ _ => ([] : List Visit)) m = [] := by
  unfold after
  split <;> rfl

namespace Account.Lawful

variable {A : Account} {ev : Expr → ScopeId → Run Value} (hA : A.Lawful ev)

include hA

/-- A step after one that makes no evaluations. -/
theorem own_bind {α β : Type} {x : Run α} {y : α → Run β} {g : α → Machine → List Visit}
    (hx : A.holds x fun _ => []) (hy : ∀ a, A.holds (y a) (g a)) :
    A.holds (x >>= y) (x.after g) :=
  hA.bind hx hy

/-- A step that makes no evaluations after one that may make some. -/
theorem bind_own {α β : Type} {x : Run α} {y : α → Run β} {f : Machine → List Visit}
    (hx : A.holds x f) (hy : ∀ a, A.holds (y a) fun _ => []) : A.holds (x >>= y) f := by
  have h := hA.bind hx hy
  simpa only [after_nil, List.append_nil] using h

/-! ## Steps without evaluation -/

theorem noteCall (name : Text) (params : List Text) (args : List Value) :
    A.holds (Run.noteCall name params args) fun _ => [] := by
  refine hA.bind_own (hA.note _) fun _ => ?_
  split
  · exact hA.note _
  · exact hA.result ()

theorem bindParams (scope : ScopeId) (params : List Text) (args : List Value) :
    A.holds (Run.bindParams scope params args) fun _ => [] := by
  induction params generalizing args with
  | nil => exact hA.result ()
  | cons p ps ih =>
    rw [bindParams_cons]
    exact hA.bind_own (hA.declare scope p _) fun _ => ih _

theorem combine (op : Op) (v w : Value) : A.holds (Run.combine op v w) fun _ => [] := by
  unfold Run.combine
  split
  · rename_i a b
    cases op.compute a b with
    | none => exact hA.fail _
    | some v => exact hA.result v
  · exact hA.fail _

theorem demandBool (construct : Construct) (v : Value) :
    A.holds (Run.demandBool construct v) fun _ => [] := by
  cases v with
  | bool b => exact hA.result b
  | int | null | closure => exact hA.fail _

theorem enter (site : Option Expr) (name : Text) (params : List Text) (body : Option Expr)
    (outer : ScopeId) (args : List Value) :
    A.holds (Run.enter site name params body outer args) fun _ => [] := by
  refine hA.bind_own (hA.noteCall name params args) fun _ => hA.bind_own (hA.push _) fun _ => ?_
  refine hA.bind_own (hA.newScope outer) fun inner => ?_
  exact hA.bind_own (hA.bindParams inner params args) fun _ => hA.result inner

/-! ## Parts of evaluation -/

theorem evalBlock (block : Option Expr) (scope : ScopeId) :
    A.holds (Run.evalBlock ev block scope) (visitsBlock block scope) := by
  cases block with
  | none => exact hA.result Value.null
  | some e => exact hA.visit e scope

theorem evalStatements (scope : ScopeId) (es : List Expr) (last : Value) :
    A.holds (Run.evalStatements ev scope last es) (visitsInTurn ev scope es) := by
  induction es generalizing last with
  | nil => exact hA.result last
  | cons e es ih => exact hA.bind (hA.visit e scope) fun v => ih v

theorem evalArgs (scope : ScopeId) (es : List Expr) :
    A.holds (Run.evalArgs ev scope es) (visitsInTurn ev scope es) := by
  induction es with
  | nil => exact hA.result []
  | cons e es ih =>
    exact hA.bind (hA.visit e scope) fun v => hA.bind_own ih fun vs => hA.result (v :: vs)

theorem evalLoop (test : Expr) (body : Option Expr) (scope : ScopeId) (rounds count : Nat)
    (last : Value) :
    A.holds (Run.evalLoop ev test body scope rounds count last)
      (visitsLoop ev test body scope rounds) := by
  induction rounds generalizing count last with
  | zero => exact hA.suspend
  | succ rounds ih =>
    refine hA.bind (hA.visit test scope) fun c => hA.own_bind (hA.demandBool .loop c)
      fun holds => ?_
    cases holds with
    | true => exact hA.bind (hA.evalBlock body scope) fun v => ih (count + 1) v
    | false => exact hA.bind_own (hA.note _) fun _ => hA.result last

/-- **A call makes the evaluation of its body**, once it is entered. -/
theorem callClosure (site : Option Expr) (name : Text) (params : List Text) (body : Option Expr)
    (outer : ScopeId) (args : List Value) :
    A.holds (Run.callClosure ev site name params body outer args)
      ((Run.enter site name params body outer args).after (visitsBlock body)) := by
  rw [callClosure_eq_enter]
  refine hA.own_bind (hA.enter site name params body outer args) fun inner => ?_
  refine hA.bind_own (hA.evalBlock body inner) fun v => ?_
  exact hA.bind_own hA.pop fun _ => hA.result v

end Account.Lawful

/-! ## Expressions -/

/-- **An evaluation makes the evaluations of its parts.** Print expressions, which do more than
that, are left out. -/
theorem Account.Lawful.eval {A : Account} {rounds depth : Nat}
    (hA : A.Lawful (Run.eval rounds depth)) {e : Expr} (he : ∀ a, e ≠ .print a) (scope : ScopeId) :
    A.holds (Run.eval rounds (depth + 1) e scope) (visits rounds (depth + 1) e scope) := by
  unfold Run.eval
  refine hA.own_bind (g := fun _ => visitsParts (Run.eval rounds depth) rounds e scope)
    (hA.look e) fun _ => ?_
  cases e with
  | print a => exact absurd rfl (he a)
  | literal v => exact hA.result v
  | var name => exact hA.resolve scope name
  | func params body => exact hA.result _
  | binop op left right =>
    refine hA.bind (hA.visit left scope) fun v => hA.bind_own (hA.visit right scope) fun w => ?_
    exact hA.bind_own (hA.look _) fun _ => hA.combine op v w
  | cond test thn els =>
    refine hA.bind (hA.visit test scope) fun c => hA.own_bind (hA.demandBool .choice c)
      fun holds => ?_
    cases holds with
    | true => exact hA.evalBlock thn scope
    | false => exact hA.evalBlock els scope
  | loop test body => exact hA.evalLoop test body scope rounds 0 .null
  | seq a b => exact hA.evalStatements scope _ .null
  | decl name init =>
    refine hA.bind_own (hA.visit init scope) fun v => hA.bind_own (hA.look _) fun _ => ?_
    refine hA.bind_own (hA.declare scope name v) fun _ => hA.bind_own (hA.note _) fun _ => ?_
    exact hA.resolve scope name
  | assign name rhs =>
    refine hA.bind_own (hA.visit rhs scope) fun v => ?_
    refine hA.bind_own (hA.update scope name v) fun _ => hA.bind_own (hA.note _) fun _ => ?_
    exact hA.resolve scope name
  | call callee args =>
    refine hA.bind (hA.visit callee scope) fun f => ?_
    cases f with
    | closure params body outer =>
      exact hA.bind (hA.evalArgs scope args) fun vs => hA.callClosure _ _ params body outer vs
    | int | bool | null => exact hA.bind_own (hA.look _) fun _ => hA.fail _

end Treewalk
