import Treewalk.Machine.Eval

/-!
# What the operators compute

`Op.Computes op a b v` gives the value of an operation on two integers by the laws of 32-bit
arithmetic: a result is the integer of the range that is congruent to the exact one modulo `2^32`,
and a quotient is cut toward zero, so that the remainder has the sign of the dividend. A division by
zero computes nothing. `Op.computes_iff` says that this is what `Op.compute` gives.
-/

namespace Treewalk

/-- Whether an integer stands for an exact result in the 32-bit range. -/
structure Value.Wraps (exact n : Int) : Prop where
  mem : Value.intMin ≤ n ∧ n ≤ Value.intMax
  congruent : (0x100000000 : Int) ∣ n - exact

/-- Whether `q` and `r` are quotient and remainder of a division that is cut toward zero. -/
structure Op.Truncates (a b q r : Int) : Prop where
  eq : a = b * q + r
  small : r.natAbs < b.natAbs
  nonneg : 0 ≤ a → 0 ≤ r
  nonpos : a ≤ 0 → r ≤ 0

/-- What an operation on two integers computes. -/
inductive Op.Computes : Op → Int → Int → Value → Prop where
  | add {a b n} : Value.Wraps (a + b) n → Computes .add a b (.int n)
  | sub {a b n} : Value.Wraps (a - b) n → Computes .sub a b (.int n)
  | mul {a b n} : Value.Wraps (a * b) n → Computes .mul a b (.int n)
  | div {a b q r n} : Op.Truncates a b q r → Value.Wraps q n → Computes .div a b (.int n)
  | mod {a b q r n} : Op.Truncates a b q r → Value.Wraps r n → Computes .mod a b (.int n)
  | gt {a b} : Computes .gt a b (.bool (b < a))
  | ge {a b} : Computes .ge a b (.bool (b ≤ a))
  | lt {a b} : Computes .lt a b (.bool (a < b))
  | le {a b} : Computes .le a b (.bool (a ≤ b))
  | eq {a b} : Computes .eq a b (.bool (a = b))

/-- The integer that stands for an exact result is the wrapped one. -/
theorem Value.wraps_iff {exact n : Int} : Value.Wraps exact n ↔ n = Value.wrap exact := by
  constructor
  · rintro ⟨hmem, k, hk⟩
    have h : exact = n + (0x100000000 : Nat) * (-k) := by omega
    rw [h, Value.wrap, Int.add_mul_bmod_self_left]
    exact (Value.wrap_of_mem hmem).symm
  · rintro rfl
    exact ⟨Value.wrap_mem exact, Int.dvd_bmod_sub_self⟩

namespace Op

variable {a b : Int}

theorem truncates_tdiv (a : Int) (hb : b ≠ 0) : Truncates a b (a.tdiv b) (a.tmod b) where
  eq := (Int.mul_tdiv_add_tmod a b).symm
  small := by
    rw [Int.natAbs_tmod]
    exact Nat.mod_lt _ (by omega)
  nonneg := Int.tmod_nonneg b
  nonpos h := by
    have hneg := Int.tmod_nonneg (a := -a) b (by omega)
    rw [Int.neg_tmod] at hneg
    omega

/-- There is only one quotient cut toward zero. -/
theorem Truncates.eq_tdiv {q r : Int} (h : Truncates a b q r) :
    q = a.tdiv b ∧ r = a.tmod b := by
  have hb : b ≠ 0 := by
    have := h.small
    omega
  have ht := truncates_tdiv a hb
  -- Both remainders are smaller than the divisor and have the sign of the dividend.
  have hdvd : b ∣ r - a.tmod b := by
    refine ⟨a.tdiv b - q, ?_⟩
    rw [Int.mul_sub]
    have := h.eq
    have := ht.eq
    omega
  have hr : r - a.tmod b = 0 := by
    refine Int.eq_zero_of_dvd_of_natAbs_lt_natAbs hdvd ?_
    obtain ⟨-, hs, hn, hp⟩ := h
    obtain ⟨-, hs', hn', hp'⟩ := ht
    omega
  have hr : r = a.tmod b := by omega
  refine ⟨Int.eq_of_mul_eq_mul_left hb ?_, hr⟩
  have := h.eq
  have := ht.eq
  omega

/-- **The operators compute what the laws of 32-bit arithmetic say.** -/
theorem computes_iff {op : Op} {v : Value} : op.Computes a b v ↔ op.compute a b = some v := by
  constructor
  · intro h
    cases h with
    | add h | sub h | mul h => rw [Value.wraps_iff.mp h]; rfl
    | div ht h | mod ht h =>
      have hb : b ≠ 0 := by
        have := ht.small
        omega
      obtain ⟨hq, hr⟩ := ht.eq_tdiv
      rw [Value.wraps_iff.mp h]
      simp only [compute, if_neg hb, hq, hr]
      rfl
    | gt | ge | lt | le | eq => rfl
  · intro h
    cases op with
    | add | sub | mul =>
      cases h
      constructor
      exact Value.wraps_iff.mpr rfl
    | div | mod =>
      by_cases hb : b = 0
      · simp [compute, hb] at h
      · simp only [compute, if_neg hb, Option.some.injEq] at h
        subst h
        constructor
        · exact truncates_tdiv a hb
        · exact Value.wraps_iff.mpr rfl
    | gt | ge | lt | le | eq =>
      cases h
      constructor

end Op

end Treewalk
