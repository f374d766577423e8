import Treewalk.Proofs.Semantics.Arithmetic

/-!
# Rules of evaluation

The meaning of expressions by rules, without machine, depth or rounds.

`Evaluates e scope s log end s'` says that `e`, evaluated in a scope of the store `s`, ends as `end`
says and leaves the store `s'`, and that `log` is what could be seen meanwhile, in order: the lines
that were printed and the calls that were entered and left. An end is a value, or an error with its
kind, its text and the expression whose own rule raised it.

* What an expression evaluates first may fail, and then the expression fails (`firstError`).
* Operands, callee and arguments are evaluated from left to right. A callee that is no closure fails
  before the arguments are evaluated; operands are both evaluated before they are looked at.
* `seq` evaluates its first part and then its second one, whatever these parts are.
* A loop makes one round after the other and carries the value of the last round (`Loops`).
* A call binds the parameters in a new scope inside the scope of the closure (`Binds`).

An error keeps the store and the log of all that was done before it.
-/

namespace Treewalk

/-- What can be seen of an evaluation while it goes on. -/
inductive Event where
  | printed (line : Text)
  | entered (call : Frame)
  | left

/-- How an evaluation ends. -/
inductive Ending (α : Type) where
  | value (a : α)
  /-- `culprit` is the expression whose rule raised the error. -/
  | error (culprit : Expr) (kind : FaultKind) (text : Text)

/-- The part of an expression that is evaluated first. Literals, variables and functions evaluate no
part, and loops have rules of their own. -/
def Expr.first? : Expr → Option Expr
  | .print e | .binop _ e _ | .cond e _ _ | .seq e _ | .decl _ e | .assign _ e | .call e _ => some e
  | .literal _ | .var _ | .loop .. | .func .. => none

/-- Binding of parameters in a scope: the arguments in order, null where none is left. The binding
stops at a parameter that the scope binds already. -/
inductive Binds (scope : ScopeId) :
    List Text → List Value → Store → Option Text → Store → Prop where
  | nil {vs s} : Binds scope [] vs s none s
  | cons {p ps vs s stop s'} : s.binds scope p = false →
      Binds scope ps vs.tail (s.set scope p (vs.headD .null)) stop s' →
      Binds scope (p :: ps) vs s stop s'
  | duplicate {p ps vs s} : s.binds scope p = true → Binds scope (p :: ps) vs s (some p) s

mutual

/-- How an expression evaluates. -/
inductive Evaluates : Expr → ScopeId → Store → List Event → Ending Value → Store → Prop where
  | literal {v scope s} : Evaluates (.literal v) scope s [] (.value v) s
  | var {x scope s} : Evaluates (.var x) scope s [] (.value (s.resolve scope x)) s
  | func {ps b scope s} : Evaluates (.func ps b) scope s [] (.value (.closure ps b scope)) s
  | firstError {e first scope s log culprit k t s'} : e.first? = some first →
      Evaluates first scope s log (.error culprit k t) s' →
      Evaluates e scope s log (.error culprit k t) s'
  | print {e scope s log v s'} : Evaluates e scope s log (.value v) s' →
      Evaluates (.print e) scope s (log ++ [.printed v.text]) (.value v) s'
  | binopError {op l r scope s log₁ v s₁ log₂ culprit k t s'} :
      Evaluates l scope s log₁ (.value v) s₁ →
      Evaluates r scope s₁ log₂ (.error culprit k t) s' →
      Evaluates (.binop op l r) scope s (log₁ ++ log₂) (.error culprit k t) s'
  | binop {op l r scope s log₁ a s₁ log₂ b s' v} :
      Evaluates l scope s log₁ (.value (.int a)) s₁ →
      Evaluates r scope s₁ log₂ (.value (.int b)) s' →
      op.Computes a b v →
      Evaluates (.binop op l r) scope s (log₁ ++ log₂) (.value v) s'
  | binopZero {op l r scope s log₁ a s₁ log₂ s'} :
      Evaluates l scope s log₁ (.value (.int a)) s₁ →
      Evaluates r scope s₁ log₂ (.value (.int 0)) s' →
      op = .div ∨ op = .mod →
      Evaluates (.binop op l r) scope s (log₁ ++ log₂)
        (.error (.binop op l r) .divisionByZero (showInt a ++ " " ++ op.symbol ++ " 0")) s'
  | binopKinds {op l r scope s log₁ v s₁ log₂ w s'} :
      Evaluates l scope s log₁ (.value v) s₁ →
      Evaluates r scope s₁ log₂ (.value w) s' →
      (∀ a b, ¬(v = .int a ∧ w = .int b)) →
      Evaluates (.binop op l r) scope s (log₁ ++ log₂)
        (.error (.binop op l r) .type
          ("operator '" ++ op.symbol ++ "' expects int operands, got " ++ v.kind ++ " " ++
            op.symbol ++ " " ++ w.kind)) s'
  | condTrue {test thn els scope s log₁ s₁ log₂ r s'} :
      Evaluates test scope s log₁ (.value (.bool true)) s₁ →
      EvaluatesBlock thn scope s₁ log₂ r s' →
      Evaluates (.cond test thn els) scope s (log₁ ++ log₂) r s'
  | condFalse {test thn els scope s log₁ s₁ log₂ r s'} :
      Evaluates test scope s log₁ (.value (.bool false)) s₁ →
      EvaluatesBlock els scope s₁ log₂ r s' →
      Evaluates (.cond test thn els) scope s (log₁ ++ log₂) r s'
  | condKind {test thn els scope s log v s'} :
      Evaluates test scope s log (.value v) s' →
      (∀ b, v ≠ .bool b) →
      Evaluates (.cond test thn els) scope s log
        (.error (.cond test thn els) .type ("if condition must be a bool, got " ++ v.kind)) s'
  | loop {test body scope s log r s'} :
      Loops test body scope .null s log r s' →
      Evaluates (.loop test body) scope s log r s'
  | seq {first second scope s log₁ v s₁ log₂ r s'} :
      Evaluates first scope s log₁ (.value v) s₁ →
      Evaluates second scope s₁ log₂ r s' →
      Evaluates (.seq first second) scope s (log₁ ++ log₂) r s'
  | decl {x e scope s log v s'} :
      Evaluates e scope s log (.value v) s' →
      s'.binds scope x = false →
      Evaluates (.decl x e) scope s log
        (.value ((s'.set scope x v).resolve scope x)) (s'.set scope x v)
  | declDuplicate {x e scope s log v s'} :
      Evaluates e scope s log (.value v) s' →
      s'.binds scope x = true →
      Evaluates (.decl x e) scope s log
        (.error (.decl x e) .duplicateVariable
          ("Variable '" ++ x ++ "' is already declared in this scope")) s'
  | assign {x e scope s log v s'} :
      Evaluates e scope s log (.value v) s' →
      Evaluates (.assign x e) scope s log
        (.value ((s'.update scope x v).resolve scope x)) (s'.update scope x v)
  | callKind {f args scope s log v s'} :
      Evaluates f scope s log (.value v) s' →
      (∀ ps b outer, v ≠ .closure ps b outer) →
      Evaluates (.call f args) scope s log
        (.error (.call f args) .notCallable ("Value is not a function: " ++ v.text)) s'
  | callArgs {f args scope s log₁ ps b outer s₁ log₂ culprit k t s'} :
      Evaluates f scope s log₁ (.value (.closure ps b outer)) s₁ →
      EvaluatesArgs args scope s₁ log₂ (.error culprit k t) s' →
      Evaluates (.call f args) scope s (log₁ ++ log₂) (.error culprit k t) s'
  | callParams {f args scope s log₁ ps b outer s₁ log₂ vs s₂ inner s₃ p s'} :
      Evaluates f scope s log₁ (.value (.closure ps b outer)) s₁ →
      EvaluatesArgs args scope s₁ log₂ (.value vs) s₂ →
      s₂.alloc (some outer) = (inner, s₃) →
      Binds inner ps vs s₃ (some p) s' →
      Evaluates (.call f args) scope s
        (log₁ ++ log₂ ++ [.entered ⟨Run.calleeName f, ps, b, outer, vs, some (.call f args)⟩])
        (.error (.call f args) .duplicateVariable
          ("Variable '" ++ p ++ "' is already declared in this scope")) s'
  | callError {f args scope s log₁ ps b outer s₁ log₂ vs s₂ inner s₃ s₄ log₃ culprit k t s'} :
      Evaluates f scope s log₁ (.value (.closure ps b outer)) s₁ →
      EvaluatesArgs args scope s₁ log₂ (.value vs) s₂ →
      s₂.alloc (some outer) = (inner, s₃) →
      Binds inner ps vs s₃ none s₄ →
      EvaluatesBlock b inner s₄ log₃ (.error culprit k t) s' →
      Evaluates (.call f args) scope s
        (log₁ ++ log₂ ++ .entered ⟨Run.calleeName f, ps, b, outer, vs, some (.call f args)⟩ :: log₃)
        (.error culprit k t) s'
  | call {f args scope s log₁ ps b outer s₁ log₂ vs s₂ inner s₃ s₄ log₃ v s'} :
      Evaluates f scope s log₁ (.value (.closure ps b outer)) s₁ →
      EvaluatesArgs args scope s₁ log₂ (.value vs) s₂ →
      s₂.alloc (some outer) = (inner, s₃) →
      Binds inner ps vs s₃ none s₄ →
      EvaluatesBlock b inner s₄ log₃ (.value v) s' →
      Evaluates (.call f args) scope s
        (log₁ ++ log₂ ++ .entered ⟨Run.calleeName f, ps, b, outer, vs, some (.call f args)⟩ ::
          (log₃ ++ [.left]))
        (.value v) s'

/-- How a block evaluates: an empty one gives null. -/
inductive EvaluatesBlock :
    Option Expr → ScopeId → Store → List Event → Ending Value → Store → Prop where
  | none {scope s} : EvaluatesBlock none scope s [] (.value .null) s
  | some {e scope s log r s'} : Evaluates e scope s log r s' →
      EvaluatesBlock (some e) scope s log r s'

/-- How arguments evaluate, from left to right. -/
inductive EvaluatesArgs :
    List Expr → ScopeId → Store → List Event → Ending (List Value) → Store → Prop where
  | nil {scope s} : EvaluatesArgs [] scope s [] (.value []) s
  | firstError {e es scope s log culprit k t s'} :
      Evaluates e scope s log (.error culprit k t) s' →
      EvaluatesArgs (e :: es) scope s log (.error culprit k t) s'
  | restError {e es scope s log₁ v s₁ log₂ culprit k t s'} :
      Evaluates e scope s log₁ (.value v) s₁ →
      EvaluatesArgs es scope s₁ log₂ (.error culprit k t) s' →
      EvaluatesArgs (e :: es) scope s (log₁ ++ log₂) (.error culprit k t) s'
  | cons {e es scope s log₁ v s₁ log₂ vs s'} :
      Evaluates e scope s log₁ (.value v) s₁ →
      EvaluatesArgs es scope s₁ log₂ (.value vs) s' →
      EvaluatesArgs (e :: es) scope s (log₁ ++ log₂) (.value (v :: vs)) s'

/-- How a loop goes on after rounds of which the last one gave `last`. -/
inductive Loops : Expr → Option Expr → ScopeId → Value → Store → List Event → Ending Value →
    Store → Prop where
  | testError {test body scope last s log culprit k t s'} :
      Evaluates test scope s log (.error culprit k t) s' →
      Loops test body scope last s log (.error culprit k t) s'
  | testKind {test body scope last s log v s'} :
      Evaluates test scope s log (.value v) s' →
      (∀ b, v ≠ .bool b) →
      Loops test body scope last s log
        (.error (.loop test body) .type ("while condition must be a bool, got " ++ v.kind)) s'
  | stop {test body scope last s log s'} :
      Evaluates test scope s log (.value (.bool false)) s' →
      Loops test body scope last s log (.value last) s'
  | bodyError {test body scope last s log₁ s₁ log₂ culprit k t s'} :
      Evaluates test scope s log₁ (.value (.bool true)) s₁ →
      EvaluatesBlock body scope s₁ log₂ (.error culprit k t) s' →
      Loops test body scope last s (log₁ ++ log₂) (.error culprit k t) s'
  | round {test body scope last s log₁ s₁ log₂ v s₂ log₃ r s'} :
      Evaluates test scope s log₁ (.value (.bool true)) s₁ →
      EvaluatesBlock body scope s₁ log₂ (.value v) s₂ →
      Loops test body scope v s₂ log₃ r s' →
      Loops test body scope last s (log₁ ++ log₂ ++ log₃) r s'

end

end Treewalk
