import Mathlib.Data.List.Induction
import Treewalk.Proofs.Machine.Monotone

/-!
# Chains and their statements

The statements of a chain are evaluated one level deeper than the chain, and apart from this it does
not matter whether expressions are evaluated as a chain or one after another: what a chain ends
with, its parts end with if they are evaluated one after another at the depth of the chain
(`eval_seq_deepens`, `eval_deepens_statements`). Since a chain needs no depth for the statements
before the last one, this holds for chains of any length.

A chain is taken up as the current node first. This leaves no trace, because each evaluation begins
with taking up its own node (`eval_succ_current`).
-/

namespace Treewalk.Run

variable {rounds depth : Nat} {scope : ScopeId}

/-- An evaluation does not depend on what was taken up before. -/
theorem eval_succ_current (e : Expr) (m : Machine) (d : Document) :
    eval rounds (depth + 1) e scope { m with current := d } = eval rounds (depth + 1) e scope m :=
  rfl

/-- A chain is evaluated like its statements. -/
theorem eval_succ_seq (last : Value) (a b : Expr) :
    eval rounds (depth + 2) (.seq a b) scope =
      evalStatements (eval rounds (depth + 1)) scope last (Expr.seq a b).statements := by
  obtain ⟨s, ss, hs⟩ := (Expr.seq a b).exists_statements_eq_cons
  rw [eval, hs]
  rfl

theorem eval_one_seq (a b : Expr) (m : Machine) :
    (eval rounds 1 (.seq a b) scope m).1 = .exhausted := by
  obtain ⟨s, ss, hs⟩ := (Expr.seq a b).exists_statements_eq_cons
  rw [eval, hs]
  rfl

/-- The statements of an expression are evaluated one level deeper than the expression. -/
theorem evalStatements_deepens (last : Value) (e : Expr) :
    (evalStatements (eval rounds depth) scope last e.statements).Deepens
      (eval rounds (depth + 1) e scope) := by
  induction e using Expr.chainRec with
  | single e he =>
    rw [he, evalStatements_single]
    exact eval_deepens rounds (Nat.le_succ depth) e scope
  | seq a b =>
    cases depth with
    | zero =>
      obtain ⟨s, ss, hs⟩ := (Expr.seq a b).exists_statements_eq_cons
      rw [hs]
      exact fun _ => .inl rfl
    | succ depth =>
      rw [eval_succ_seq last]
      exact .refl _

/-- What a chain of two parts ends with, the parts end with one after the other. -/
theorem eval_seq_deepens (a b : Expr) :
    (eval rounds depth (.seq a b) scope).Deepens
      (eval rounds depth a scope >>= fun _ => eval rounds depth b scope) := by
  match depth with
  | 0 => exact .exhaust _
  | 1 => exact fun m => .inl (eval_one_seq a b m)
  | depth + 2 =>
    rw [eval_succ_seq .null, Expr.statements_seq, evalStatements_append]
    refine (evalStatements_deepens .null a).bind fun v => ?_
    rw [evalStatements_single]
    exact eval_deepens rounds (Nat.le_succ (depth + 1)) b scope

/-- What a chain ends with, its statements end with one after another. -/
theorem eval_deepens_statements {es : List Expr} {e : Expr} (h : Expr.ofStatements? es = some e)
    (last : Value) :
    (eval rounds depth e scope).Deepens (evalStatements (eval rounds depth) scope last es) := by
  induction es using List.reverseRecOn generalizing e with
  | nil => cases h
  | append_singleton es x ih =>
    cases hes : Expr.ofStatements? es with
    | none =>
      cases es with
      | cons => cases hes
      | nil =>
        obtain rfl : x = e := Option.some.inj h
        rw [List.nil_append, evalStatements_single]
        exact .refl _
    | some f =>
      rw [Expr.ofStatements?_append_singleton hes, Option.some.injEq] at h
      subst h
      rw [evalStatements_append]
      refine (eval_seq_deepens f x).trans ((ih hes).bind fun v => ?_)
      rw [evalStatements_single]
      exact .refl _

end Treewalk.Run
