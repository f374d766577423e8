import Treewalk.Proofs.Machine.Chains
import Treewalk.Proofs.Regrouping.Syntax

/-!
# Evaluation of regrouped expressions

Regrouped expressions, evaluated in machines that differ by regrouping, end in the same way and in
machines that differ by regrouping, if neither evaluation runs out of depth (`mirrors_regrouped`).
The depth itself may differ, because a chain that is nested to the right needs more of it than one
that is nested to the left.

The statements of two such chains do not correspond to each other, but their heads do, and what a
chain ends with its heads end with one after another (`evalStatements_deepens_heads`).
-/

namespace Treewalk

namespace Run

variable {rounds depth : Nat} {scope : ScopeId}

/-- What an expression ends with, its heads end with one after another. -/
theorem eval_deepens_heads (last : Value) (e : Expr) :
    (eval rounds depth e scope).Deepens
      (evalStatements (eval rounds depth) scope last e.heads) := by
  have hone : ∀ last e, (eval rounds depth e scope).Deepens
      (evalStatements (eval rounds depth) scope last [e]) := by
    intro last e
    rw [evalStatements_single]
    exact .refl _
  induction e using Expr.rec (motive_2 := fun _ => True) (motive_3 := fun _ => True)
    (motive_4 := fun _ => True) generalizing last with
  | seq a b ha hb =>
    rw [Expr.heads, evalStatements_append]
    exact (eval_seq_deepens a b).trans ((ha last).bind fun v => hb v)
  | literal | var | print | binop | cond | loop | decl | assign | func | call =>
    exact hone last _
  | _ => trivial

/-- What the statements of an expression end with, its heads end with one after another. -/
theorem evalStatements_deepens_heads (last : Value) (e : Expr) :
    (evalStatements (eval rounds depth) scope last e.statements).Deepens
      (evalStatements (eval rounds depth) scope last e.heads) := by
  induction e using Expr.chainRec with
  | single e he =>
    rw [he, evalStatements_single]
    exact eval_deepens_heads last e
  | seq a b ih =>
    rw [Expr.statements_seq, Expr.heads, evalStatements_append, evalStatements_append]
    refine ih.bind fun v => ?_
    rw [evalStatements_single]
    exact eval_deepens_heads v b

end Run

/-- Whether what was taken up last corresponds. -/
inductive Likeness.Taken (L : Likeness) : Document → Document → Prop where
  | same (d : Document) : Taken L d d
  | node {e e' : Expr} : L.expr e e' → Taken L (.node e) (.node e')

/-- The machines that went the same way through regrouped code. -/
inductive Machine.Regrouped (m : Machine) : Machine → Prop where
  | mk (store : Store) {frames : List Frame} {current : Document} :
    List.Forall₂ Likeness.regrouping.Frames m.frames frames →
    Likeness.regrouping.Taken m.current current →
    Regrouped m { m with store := store, frames := frames, current := current }

namespace Pairing

/-- The pairing of machines that differ by regrouping. Nothing is asked where one of the two
evaluations runs out of depth. -/
def regrouping : Pairing where
  toLikeness := .regrouping
  rest := Machine.Regrouped
  exhaustedFirst := True
  exhaustedSecond := True
  unfinishedFirst := False

theorem lawful_regrouping : regrouping.Lawful where
  ordered := by
    rintro i _ o _ rfl rfl
    exact Iff.rfl
  node := Expr.Regrouped.nodes
  look := by
    rintro m _ e e' ⟨store, hframes, -⟩ he
    exact .mk store hframes (.node he)
  note := by
    rintro m _ line ⟨store, hframes, hcurrent⟩
    unfold Run.note Run.change
    dsimp only
    split
    · exact .mk store hframes hcurrent
    · exact .mk store hframes hcurrent
  writeLine := by
    rintro m _ line ⟨store, hframes, hcurrent⟩
    exact .mk store hframes hcurrent
  push := by
    rintro m _ c c' ⟨store, hframes, hcurrent⟩ hc
    exact .mk store (.cons hc hframes) hcurrent
  pop := by
    rintro m _ ⟨store, hframes, hcurrent⟩
    refine .mk store ?_ hcurrent
    simpa only [List.drop_one] using List.forall₂_drop 1 hframes
  set := by
    rintro m _ i i' v v' name ⟨store, hframes, hcurrent⟩ _ _
    exact .mk (store.set i' name v') hframes hcurrent
  alloc := by
    rintro m _ o o' ⟨store, hframes, hcurrent⟩ _
    exact .mk (store.alloc (some o')).2 hframes hcurrent

variable {P : Pairing} {α β : Type} {R : α → β → Prop}

/-- Steps that mirror each other where they do not run out of depth. -/
theorem Mirrors.of_deepens (hfirst : P.exhaustedFirst) (hsecond : P.exhaustedSecond)
    {x x' : Run α} {y y' : Run β} (hx : x.Deepens x') (hy : y.Deepens y')
    (h : P.Mirrors R x' y') : P.Mirrors R x y := by
  intro m m' hm
  rcases hx m with hx | hx
  · generalize x m = e at hx ⊢
    obtain ⟨outcome, m₁⟩ := e
    obtain rfl : outcome = .exhausted := hx
    exact .exhaustedFirst hfirst
  rcases hy m' with hy | hy
  · generalize y m' = e at hy ⊢
    obtain ⟨outcome, m₁⟩ := e
    obtain rfl : outcome = .exhausted := hy
    exact .exhaustedSecond hsecond
  rw [hx, hy]
  exact h m m' hm

/-- **Regrouping changes no evaluation**, as long as the depth suffices. -/
theorem mirrors_regrouped (rounds depth depth' : Nat) :
    regrouping.EvaluatorsMirror (Run.eval rounds depth) (Run.eval rounds depth') := by
  induction depth generalizing depth' with
  | zero => exact fun _ _ _ _ _ _ _ _ _ => .exhaustedFirst trivial
  | succ depth ih =>
    cases depth' with
    | zero => exact fun _ _ _ _ _ _ _ _ _ => .exhaustedSecond trivial
    | succ depth' =>
      refine lawful_regrouping.mirrors_eval_succ (.refl rounds) (ih depth') ?_
      intro a b e' i i' he hi
      refine Mirrors.of_deepens trivial trivial (Run.evalStatements_deepens_heads _ _)
        (Run.evalStatements_deepens_heads _ _) ?_
      exact mirrors_evalStatements (ih depth') he.heads hi .null

end Pairing

end Treewalk
