import Treewalk.Expr.Basic

/-!
# Chains of statements

Every expression is a chain of one or more statements: `Expr.statements` takes it apart along the
left spine and `Expr.ofStatements?` folds it again (`ofStatements?_statements`). Facts about chains
are proved along the spine (`chainRec`): for a single statement, and for one statement more.
-/

namespace Treewalk.Expr

/-- Induction along the left spine of an expression. -/
@[elab_as_elim]
theorem chainRec {motive : Expr → Prop} (single : ∀ e : Expr, e.statements = [e] → motive e)
    (seq : ∀ first second, motive first → motive (.seq first second)) (e : Expr) : motive e := by
  induction e using Expr.rec (motive_2 := fun _ => True) (motive_3 := fun _ => True)
    (motive_4 := fun _ => True) with
  | seq first second ih _ => exact seq first second ih
  | literal | var | print | binop | cond | loop | decl | assign | func | call =>
    exact single _ rfl
  | _ => trivial

/-- A chain has at least one statement. -/
theorem exists_statements_eq_cons (e : Expr) : ∃ s ss, e.statements = s :: ss := by
  induction e using chainRec with
  | single e h => exact ⟨e, [], h⟩
  | seq first second ih =>
    obtain ⟨s, ss, h⟩ := ih
    exact ⟨s, ss ++ [second], by rw [statements_seq, h, List.cons_append]⟩

/-- The statements of a chain to which others were added. -/
theorem statements_foldl_seq (e : Expr) (ss : List Expr) :
    (ss.foldl .seq e).statements = e.statements ++ ss := by
  induction ss generalizing e with
  | nil => exact (List.append_nil _).symm
  | cons s ss ih => rw [List.foldl_cons, ih, statements_seq, List.append_assoc]; rfl

/-- Folding statements with one statement more. -/
theorem ofStatements?_append_singleton {ss : List Expr} {e : Expr} (h : ofStatements? ss = some e)
    (last : Expr) : ofStatements? (ss ++ [last]) = some (.seq e last) := by
  cases ss with
  | nil => simp [ofStatements?] at h
  | cons s ss =>
    simp only [ofStatements?, Option.some.injEq] at h
    simp [ofStatements?, h]

/-- **The statements of a chain fold back to the chain.** -/
theorem ofStatements?_statements (e : Expr) : ofStatements? e.statements = some e := by
  induction e using chainRec with
  | single e h => rw [h]; rfl
  | seq first second ih => rw [statements_seq, ofStatements?_append_singleton ih]

end Treewalk.Expr
