import Treewalk.Proofs.SideBySide.Same

/-!
# Greater bounds keep an answer

`x.Refines y` says that wherever `x` ends with a result or a fault, `y` ends in the same way and in
the same machine. Evaluation with greater bounds is refined by evaluation with smaller ones
(`eval_refines`): the bounds only decide whether an answer is found, never which.

`x.Deepens y` asks the same of `y` wherever `x` does not run out of depth. So it speaks about loops
that are not finished, too, and evaluation at a greater depth deepens evaluation at a smaller one if
both let loops make as many rounds (`eval_deepens`).
-/

namespace Treewalk.Run

variable {α β : Type}

/-- Whether a step has the end of another one wherever that has a result or a fault. -/
def Refines (x y : Run α) : Prop :=
  ∀ m, x.Ends m (fun a m' => y m = (.done a, m')) (fun fault m' => y m = (.failed fault, m'))
    fun _ => True

theorem Refines.eq_of_done {x y : Run α} (h : x.Refines y) {m m' : Machine} {a : α}
    (hx : x m = (.done a, m')) : y m = (.done a, m') :=
  (h m).of_done hx

theorem Refines.eq_of_failed {x y : Run α} (h : x.Refines y) {m m' : Machine} {fault : Fault}
    (hx : x m = (.failed fault, m')) : y m = (.failed fault, m') :=
  (h m).of_failed hx

/-- Evaluations of one expression with two bounds in one machine have the same end, unless one of
the bounds that may be smaller is used up. -/
theorem eval_eq_or {exhausted unfinished : Prop} {rounds rounds' depth depth' : Nat}
    (hr : Pairing.Fits unfinished rounds rounds') (hd : Pairing.Fits exhausted depth depth')
    (e : Expr) (scope : ScopeId) (m : Machine) :
    eval rounds depth e scope m = eval rounds' depth' e scope m ∨
      (exhausted ∧ (eval rounds depth e scope m).1 = .exhausted) ∨
      (unfinished ∧ (eval rounds depth e scope m).1 = .unfinished) := by
  have hmirrors := Pairing.mirrors_itself Expr.hereditary_true hr hd (e := e) trivial scope
  have hstores := Likeness.stores_same_iff.mpr (m.store.bodiesAre_of_forall fun _ => trivial)
  exact Pairing.eq_of_ends (hmirrors m m ⟨hstores, rfl⟩)

/-- **Greater bounds keep an answer.** -/
theorem eval_refines {rounds rounds' depth depth' : Nat} (hr : rounds ≤ rounds')
    (hd : depth ≤ depth') (e : Expr) (scope : ScopeId) :
    (eval rounds depth e scope).Refines (eval rounds' depth' e scope) := by
  intro m
  have heq := eval_eq_or (.inr ⟨trivial, hr⟩) (.inr ⟨trivial, hd⟩) e scope m
  unfold Ends
  rcases h : eval rounds depth e scope m with ⟨_ | _ | _ | _, m'⟩
  · simpa [h, eq_comm] using heq
  · simpa [h, eq_comm] using heq
  · trivial
  · trivial

/-! ## Greater depths -/

/-- Whether a step has the end of another one wherever that does not run out of depth. -/
def Deepens (x y : Run α) : Prop := ∀ m, (x m).1 = .exhausted ∨ x m = y m

namespace Deepens

variable {x y z : Run α} {f g : α → Run β}

theorem refl (x : Run α) : x.Deepens x := fun _ => .inr rfl

theorem trans (h : x.Deepens y) (h' : y.Deepens z) : x.Deepens z := by
  intro m
  rcases h m with hx | hx
  · exact .inl hx
  · rw [hx]
    exact h' m

theorem exhaust (y : Run α) : (Run.exhaust : Run α).Deepens y := fun _ => .inl rfl

/-- One step after another. -/
theorem bind (h : x.Deepens y) (hfg : ∀ a, (f a).Deepens (g a)) :
    (x >>= f).Deepens (y >>= g) := by
  intro m
  rw [bind_apply, bind_apply]
  rcases h m with hx | hx
  · left
    generalize x m = e at hx ⊢
    obtain ⟨outcome, m'⟩ := e
    obtain rfl : outcome = .exhausted := hx
    rfl
  · rw [← hx]
    rcases x m with ⟨a | _ | _ | _, m'⟩
    · exact hfg a m'
    · exact .inr rfl
    · exact .inr rfl
    · exact .inr rfl

end Deepens

theorem eval_deepens (rounds : Nat) {depth depth' : Nat} (hd : depth ≤ depth') (e : Expr)
    (scope : ScopeId) : (eval rounds depth e scope).Deepens (eval rounds depth' e scope) := by
  intro m
  have hrounds : Pairing.Fits False rounds rounds := .refl rounds
  rcases eval_eq_or hrounds (.inr ⟨trivial, hd⟩) e scope m with h | ⟨-, h⟩ | ⟨h, -⟩
  · exact .inr h
  · exact .inl h
  · exact h.elim

end Treewalk.Run
