/-!
# Outcomes of readers

A reader gives a result or ends with a fault. `Meets P Q x` says of an outcome that the fault is of
the kind `P` and the result has the property `Q`, whichever of the two there is. Outcomes are
followed through a chain of readers with `Meets.bind`.
-/

namespace Treewalk

/-- Whether the fault of an outcome is of a kind, or its result has a property. -/
def Meets {ε α : Type} (P : ε → Prop) (Q : α → Prop) : Except ε α → Prop
  | .ok a => Q a
  | .error f => P f

namespace Meets

variable {ε α β : Type} {P P' : ε → Prop} {Q Q' : α → Prop} {R : β → Prop} {x : Except ε α}

theorem bind {g : α → Except ε β} (hx : Meets P Q x) (hg : ∀ a, Q a → Meets P R (g a)) :
    Meets P R (x >>= g) := by
  cases x with
  | ok a => exact hg a hx
  | error f => exact hx

/-- A check that ends with a fault unless it is passed. -/
theorem guard {c : Prop} [Decidable c] {f : ε} {k : PUnit → Except ε α} (hf : P f)
    (hk : Meets P Q (k ⟨⟩)) : Meets P Q (if c then throw f >>= k else k ⟨⟩) := by
  split
  · exact hf
  · exact hk

theorem ite {c : Prop} [Decidable c] {y : Except ε α} (hx : c → Meets P Q x)
    (hy : ¬c → Meets P Q y) : Meets P Q (if c then x else y) := by
  split
  · next h => exact hx h
  · next h => exact hy h

/-- A fold keeps what each of its steps keeps. -/
theorem foldlM {f : α → β → Except ε α} (hf : ∀ a b, Q a → Meets P Q (f a b)) (bs : List β) :
    ∀ a, Q a → Meets P Q (bs.foldlM f a) := by
  induction bs with
  | nil => exact fun a ha => ha
  | cons b bs ih =>
    intro a ha
    rw [List.foldlM_cons]
    exact .bind (hf a b ha) ih

theorem imp (hP : ∀ f, P f → P' f) (hQ : ∀ a, Q a → Q' a) (hx : Meets P Q x) : Meets P' Q' x := by
  cases x with
  | ok a => exact hQ a hx
  | error f => exact hP f hx

theorem of_ok {a : α} (hx : Meets P Q x) (h : x = .ok a) : Q a := by
  subst h
  exact hx

theorem of_error {f : ε} (hx : Meets P Q x) (h : x = .error f) : P f := by
  subst h
  exact hx

instance [DecidablePred P] [DecidablePred Q] : Decidable (Meets P Q x) :=
  match x with
  | .ok a => inferInstanceAs (Decidable (Q a))
  | .error f => inferInstanceAs (Decidable (P f))

end Meets

end Treewalk
