import Treewalk.Proofs.Semantics.Log
import Treewalk.Proofs.Syntax.Within

/-!
# The parts that an evaluation takes up

An expression is evaluated by evaluating its parts. `TakesUp e scope s log part s'` says that the
evaluation of `e` from the store `s` comes to its part `part` with the store `s'`, and that `log` is
what could be seen before; `Reaches` does so for the parts of parts. All of them are evaluated in
the same scope, because the bodies of functions are no parts in this sense.

Parts are evaluated one after another, so each evaluation before a part gave a value. Of such an
evaluation no call is left open (`evaluates_quiet`).
-/

namespace Treewalk

/-- Whether evaluation of arguments comes to one of them. -/
inductive TakesUpArg : List Expr → ScopeId → Store → List Event → Expr → Store → Prop where
  | here {e es scope s} : TakesUpArg (e :: es) scope s [] e s
  | there {e es scope s log v s₁ log' p s'} : Evaluates e scope s log (.value v) s₁ →
      TakesUpArg es scope s₁ log' p s' → TakesUpArg (e :: es) scope s (log ++ log') p s'

/-- Whether a loop comes, in one of its rounds, to its test or its body. -/
inductive TakesUpInLoop (test : Expr) (body : Option Expr) (scope : ScopeId) :
    Store → List Event → Expr → Store → Prop where
  | test {s} : TakesUpInLoop test body scope s [] test s
  | body {s log s' b} : Evaluates test scope s log (.value (.bool true)) s' → body = some b →
      TakesUpInLoop test body scope s log b s'
  | round {s log₁ s₁ log₂ v s₂ log₃ p s'} : Evaluates test scope s log₁ (.value (.bool true)) s₁ →
      EvaluatesBlock body scope s₁ log₂ (.value v) s₂ →
      TakesUpInLoop test body scope s₂ log₃ p s' →
      TakesUpInLoop test body scope s (log₁ ++ log₂ ++ log₃) p s'

/-- Whether evaluation of an expression comes to an immediate part. -/
inductive TakesUp : Expr → ScopeId → Store → List Event → Expr → Store → Prop where
  | first {e p scope s} : e.first? = some p → TakesUp e scope s [] p s
  | right {op l r scope s log v s'} : Evaluates l scope s log (.value v) s' →
      TakesUp (.binop op l r) scope s log r s'
  | thn {t thn els scope s log s'} : Evaluates t scope s log (.value (.bool true)) s' →
      TakesUp (.cond t (some thn) els) scope s log thn s'
  | els {t thn els scope s log s'} : Evaluates t scope s log (.value (.bool false)) s' →
      TakesUp (.cond t thn (some els)) scope s log els s'
  | loop {t body scope s log p s'} : TakesUpInLoop t body scope s log p s' →
      TakesUp (.loop t body) scope s log p s'
  | second {a b scope s log v s'} : Evaluates a scope s log (.value v) s' →
      TakesUp (.seq a b) scope s log b s'
  | arg {f args scope s log ps b outer s₁ log' p s'} :
      Evaluates f scope s log (.value (.closure ps b outer)) s₁ →
      TakesUpArg args scope s₁ log' p s' → TakesUp (.call f args) scope s (log ++ log') p s'

/-- Whether evaluation of an expression comes to a part of it, be it itself. -/
inductive Reaches : Expr → ScopeId → Store → List Event → Expr → Store → Prop where
  | refl {e scope s} : Reaches e scope s [] e s
  | step {e scope s log p s₁ log' q s'} : TakesUp e scope s log p s₁ →
      Reaches p scope s₁ log' q s' → Reaches e scope s (log ++ log') q s'

/-! ## Parts of the syntax -/

variable {e p : Expr} {es : List Expr} {scope : ScopeId} {s s' : Store} {log : List Event}

theorem Expr.child_of_first? (h : e.first? = some p) : p.Child e := by
  cases e <;> cases h <;> constructor

theorem TakesUpArg.mem (h : TakesUpArg es scope s log p s') : p ∈ es := by
  induction h with
  | here => exact List.mem_cons_self
  | there _ _ ih => exact List.mem_cons_of_mem _ ih

theorem TakesUpInLoop.child {test : Expr} {body : Option Expr}
    (h : TakesUpInLoop test body scope s log p s') : p.Child (.loop test body) := by
  induction h with
  | test => exact .loopTest
  | body _ hbody => exact hbody ▸ .body
  | round _ _ _ ih => exact ih

theorem TakesUp.child (h : TakesUp e scope s log p s') : p.Child e := by
  cases h with
  | first hfirst => exact Expr.child_of_first? hfirst
  | right => exact .right
  | thn => exact .thn
  | els => exact .els
  | loop h => exact h.child
  | second => exact .second
  | arg _ h => exact .arg h.mem

/-- What an evaluation reaches is a part of the expression. -/
theorem Reaches.part (h : Reaches e scope s log p s') : p.Part e := by
  induction h with
  | refl => exact .refl
  | step h _ ih => exact ih.tail h.child

/-! ## Evaluations that give a value -/

namespace Ending

variable {α : Type} {r : Ending α} {P Q : Prop}

/-- What holds provided that an ending is a value. -/
def IfValue (r : Ending α) (P : Prop) : Prop :=
  match r with
  | .value _ => P
  | .error .. => True

/-- What holds provided that an ending is an error. -/
def IfError (r : Ending α) (P : Prop) : Prop :=
  match r with
  | .value _ => True
  | .error .. => P

theorem IfValue.imp (h : r.IfValue P) (himp : P → Q) : r.IfValue Q := by
  cases r with
  | value => exact himp h
  | error => trivial

theorem IfError.imp (h : r.IfError P) (himp : P → Q) : r.IfError Q := by
  cases r with
  | value => trivial
  | error => exact himp h

end Ending

mutual

theorem evaluates_quiet {e : Expr} {scope : ScopeId} {s s' : Store} {log : List Event}
    {r : Ending Value} (h : Evaluates e scope s log r s') : r.IfValue (Quiet log) :=
  match h with
  | .literal => Quiet.nil
  | .var => Quiet.nil
  | .func => Quiet.nil
  | .firstError _ _ => trivial
  | .print h => Quiet.append (evaluates_quiet h) (.printed _)
  | .binopError _ _ => trivial
  | .binop hl hr _ => Quiet.append (evaluates_quiet hl) (evaluates_quiet hr)
  | .binopZero _ _ _ => trivial
  | .binopKinds _ _ _ => trivial
  | .condTrue htest h => (evaluatesBlock_quiet h).imp (Quiet.append (evaluates_quiet htest))
  | .condFalse htest h => (evaluatesBlock_quiet h).imp (Quiet.append (evaluates_quiet htest))
  | .condKind _ _ => trivial
  | .loop h => loops_quiet h
  | .seq hfirst hsecond => (evaluates_quiet hsecond).imp (Quiet.append (evaluates_quiet hfirst))
  | .decl h _ => show Quiet _ from evaluates_quiet h
  | .declDuplicate _ _ => trivial
  | .assign h => show Quiet _ from evaluates_quiet h
  | .callKind _ _ => trivial
  | .callArgs _ _ => trivial
  | .callParams _ _ _ _ => trivial
  | .callError _ _ _ _ _ => trivial
  | .call hcallee hargs _ _ hb =>
    Quiet.append (.append (evaluates_quiet hcallee) (evaluatesArgs_quiet hargs))
      (.call _ (evaluatesBlock_quiet hb))

theorem evaluatesBlock_quiet {b : Option Expr} {scope : ScopeId} {s s' : Store}
    {log : List Event} {r : Ending Value} (h : EvaluatesBlock b scope s log r s') :
    r.IfValue (Quiet log) :=
  match h with
  | .none => Quiet.nil
  | .some h => evaluates_quiet h

theorem evaluatesArgs_quiet {es : List Expr} {scope : ScopeId} {s s' : Store} {log : List Event}
    {r : Ending (List Value)} (h : EvaluatesArgs es scope s log r s') : r.IfValue (Quiet log) :=
  match h with
  | .nil => Quiet.nil
  | .firstError _ => trivial
  | .restError _ _ => trivial
  | .cons h hs => Quiet.append (evaluates_quiet h) (evaluatesArgs_quiet hs)

theorem loops_quiet {test : Expr} {body : Option Expr} {scope : ScopeId} {last : Value}
    {s s' : Store} {log : List Event} {r : Ending Value}
    (h : Loops test body scope last s log r s') : r.IfValue (Quiet log) :=
  match h with
  | .testError _ => trivial
  | .testKind _ _ => trivial
  | .stop h => show Quiet _ from evaluates_quiet h
  | .bodyError _ _ => trivial
  | .round htest hb h =>
    (loops_quiet h).imp (Quiet.append (.append (evaluates_quiet htest) (evaluatesBlock_quiet hb)))

end

/-! ## What comes before a part -/

theorem TakesUpArg.quiet (h : TakesUpArg es scope s log p s') : Quiet log := by
  induction h with
  | here => exact .nil
  | there h _ ih => exact .append (evaluates_quiet h) ih

theorem TakesUpInLoop.quiet {test : Expr} {body : Option Expr}
    (h : TakesUpInLoop test body scope s log p s') : Quiet log := by
  induction h with
  | test => exact .nil
  | body htest => exact evaluates_quiet htest
  | round htest hb _ ih =>
    exact .append (.append (evaluates_quiet htest) (evaluatesBlock_quiet hb)) ih

theorem TakesUp.quiet (h : TakesUp e scope s log p s') : Quiet log := by
  cases h with
  | first => exact .nil
  | right h | thn h | els h | second h => exact evaluates_quiet h
  | loop h => exact h.quiet
  | arg hcallee h => exact .append (evaluates_quiet hcallee) h.quiet

theorem Reaches.quiet (h : Reaches e scope s log p s') : Quiet log := by
  induction h with
  | refl => exact .nil
  | step h _ ih => exact .append h.quiet ih

end Treewalk
