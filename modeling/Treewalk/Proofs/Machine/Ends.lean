import Treewalk.Machine.Eval
import Treewalk.Proofs.Syntax.Chain

/-!
# What holds where a step ends

`x.Ends m done failed cut` says what holds of the end of the step `x` in the machine `m`: `done` of
the result and the machine, `failed` of the fault and the machine, or `cut` of the machine if the
step ran out of depth or rounds. The rule for one step after another (`Ends.bind`) asks nothing of
the second step where the first one gives no result, and so a fact about evaluation is put together
from facts about its steps.
-/

namespace Treewalk.Run

variable {α β : Type}

/-- Whether a step in a machine ends as the three predicates say. -/
def Ends (x : Run α) (m : Machine) (done : α → Machine → Prop) (failed : Fault → Machine → Prop)
    (cut : Machine → Prop) : Prop :=
  match x m with
  | (.done a, m') => done a m'
  | (.failed fault, m') => failed fault m'
  | (.exhausted, m') => cut m'
  | (.unfinished, m') => cut m'

section

variable {x : Run α} {f : α → Run β} {m m' : Machine} {done done' : α → Machine → Prop}
  {failed failed' : Fault → Machine → Prop} {cut cut' : Machine → Prop}

/-- What holds of the end that a step has. -/
theorem Ends.of_done (h : x.Ends m done failed cut) {a : α} (hx : x m = (.done a, m')) :
    done a m' := by
  unfold Ends at h
  rwa [hx] at h

theorem Ends.of_failed (h : x.Ends m done failed cut) {fault : Fault}
    (hx : x m = (.failed fault, m')) : failed fault m' := by
  unfold Ends at h
  rwa [hx] at h

/-- A weaker statement about the end of a step. -/
theorem Ends.imp (h : x.Ends m done failed cut) (hdone : ∀ a m', done a m' → done' a m')
    (hfailed : ∀ fault m', failed fault m' → failed' fault m') (hcut : ∀ m', cut m' → cut' m') :
    x.Ends m done' failed' cut' := by
  unfold Ends at h ⊢
  generalize x m = e at h ⊢
  rcases e with ⟨_ | _ | _ | _, m'⟩
  · exact hdone _ _ h
  · exact hfailed _ _ h
  · exact hcut _ h
  · exact hcut _ h

/-- **One step after another.** -/
theorem Ends.bind {done' : β → Machine → Prop} (h : x.Ends m done failed cut)
    (hdone : ∀ a m', done a m' → (f a).Ends m' done' failed cut) :
    (x >>= f).Ends m done' failed cut := by
  unfold Ends at h ⊢
  rw [bind_apply]
  generalize x m = e at h ⊢
  rcases e with ⟨_ | _ | _ | _, m'⟩
  · exact hdone _ _ h
  · exact h
  · exact h
  · exact h

/-- One step after another that is known to give a result. -/
theorem Ends.step {a : α} {done : β → Machine → Prop} (hx : x m = (.done a, m'))
    (h : (f a).Ends m' done failed cut) : (x >>= f).Ends m done failed cut := by
  unfold Ends at h ⊢
  rwa [bind_apply, hx]

/-- A step after one that is known to fail. -/
theorem Ends.stop {fault : Fault} {done : β → Machine → Prop} (hx : x m = (.failed fault, m'))
    (h : failed fault m') : (x >>= f).Ends m done failed cut := by
  unfold Ends
  rwa [bind_apply, hx]

end

/-! ## Laws of steps -/

/-- A step after which only its result is given is the step itself. -/
theorem bind_result (x : Run α) : (x >>= fun a => result a) = x := by
  funext m
  rw [bind_apply]
  rcases x m with ⟨_ | _ | _ | _, m'⟩ <;> rfl

theorem bind_assoc {γ : Type} (x : Run α) (f : α → Run β) (g : β → Run γ) :
    (x >>= f >>= g) = (x >>= fun a => f a >>= g) := by
  funext m
  simp only [bind_apply]
  rcases x m with ⟨_ | _ | _ | _, m'⟩ <;> rfl

section

variable (ev : Expr → ScopeId → Run Value) (scope : ScopeId)

/-- A single statement is evaluated like the expression that it is. -/
theorem evalStatements_single (last : Value) (e : Expr) :
    evalStatements ev scope last [e] = ev e scope :=
  bind_result (ev e scope)

/-- Statements that follow each other are evaluated one after the other. -/
theorem evalStatements_append (last : Value) (es es' : List Expr) :
    evalStatements ev scope last (es ++ es') =
      (evalStatements ev scope last es >>= fun v => evalStatements ev scope v es') := by
  induction es generalizing last with
  | nil => rfl
  | cons e es ih =>
    simp only [List.cons_append, evalStatements, bind_assoc, ih]

end

/-- Operands by which nothing can be divided. -/
theorem combine_of_zero {op : Op} (h : op = .div ∨ op = .mod) (a : Int) :
    combine op (.int a) (.int 0) = fail (.divisionByZero op a) := by
  rw [combine, (Op.compute_eq_none_iff op a 0).mpr ⟨h, rfl⟩]

/-- Operands that are not both integers. -/
theorem combine_of_kinds {v w : Value} (h : ∀ a b, ¬(v = .int a ∧ w = .int b)) (op : Op) :
    combine op v w = fail (.operandsNotInts op v w) := by
  unfold combine
  split
  · exact absurd ⟨rfl, rfl⟩ (h _ _)
  · rfl

/-- A condition that is no truth value. -/
theorem demandBool_of_kind {v : Value} (h : ∀ b, v ≠ .bool b) (construct : Construct) :
    demandBool construct v = fail (.conditionNotBool construct v) := by
  cases v with
  | bool b => exact absurd rfl (h b)
  | int | null | closure => rfl

/-- What is noted when a call is entered. -/
def noteCall (name : Text) (params : List Text) (args : List Value) : Run Unit := do
  note fun _ => "call " ++ name ++ " argc " ++ showInt args.length ++ " params " ++
    showList (params.map quote)
  if args.length ≠ params.length then
    note fun _ => "arity mismatch in " ++ name ++ " - padding/dropping arguments"

/-- A declaration of a name that the scope does not bind. -/
theorem declare_of_unbound {scope : ScopeId} {name : Text} {m : Machine}
    (h : m.store.binds scope name = false) (v : Value) :
    declare scope name v m = (.done (), { m with store := m.store.set scope name v }) := by
  rw [declare, if_neg (by simp [h])]

/-- A declaration of a name that the scope binds already. -/
theorem declare_of_bound {scope : ScopeId} {name : Text} {m : Machine}
    (h : m.store.binds scope name = true) (v : Value) :
    declare scope name v m = (.failed (.duplicateVariable name), m) := by
  rw [declare, if_pos h]

/-- Binding of one parameter more: it takes the first argument, or null if there is none. -/
theorem bindParams_cons (scope : ScopeId) (p : Text) (ps : List Text) (vs : List Value) :
    bindParams scope (p :: ps) vs =
      (declare scope p (vs.headD .null) >>= fun _ => bindParams scope ps vs.tail) := by
  cases vs <;> rfl

/-- A note changes nothing but the trace. -/
theorem note_apply (line : Unit → Text) (m : Machine) :
    ∃ trace, note line m = (.done (), { m with trace := trace }) := by
  unfold note change
  dsimp only
  split
  · exact ⟨_, rfl⟩
  · exact ⟨m.trace, rfl⟩

theorem noteCall_apply (name : Text) (params : List Text) (args : List Value) (m : Machine) :
    ∃ trace, noteCall name params args m = (.done (), { m with trace := trace }) := by
  unfold noteCall
  obtain ⟨trace, h⟩ := note_apply _ m
  rw [bind_apply, h]
  dsimp only
  split
  · exact note_apply _ { m with trace := trace }
  · exact ⟨trace, rfl⟩

/-- A call is noted, entered, run and left. -/
theorem callClosure_eq (ev : Expr → ScopeId → Run Value) (site : Option Expr) (name : Text)
    (params : List Text) (body : Option Expr) (outer : ScopeId) (args : List Value) :
    callClosure ev site name params body outer args =
      (noteCall name params args >>= fun _ =>
        push ⟨name, params, body, outer, args, site⟩ >>= fun _ =>
          applyClosure ev params body outer args >>= fun v => pop >>= fun _ => result v) := by
  unfold callClosure noteCall
  dsimp only
  split
  · rw [bind_assoc]
  · rw [bind_assoc]
    rfl

end Treewalk.Run
