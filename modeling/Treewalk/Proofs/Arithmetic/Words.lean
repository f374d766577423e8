import Treewalk.Proofs.Semantics.Arithmetic

/-!
# Operations on words

The integers of the language are words of 32 bits that are read as signed integers
(`Value.toInt_ofInt`), and the operators compute what a machine computes on such words
(`Op.compute_eq_onWords`). `Op.DividesWith` lists the laws of division: a divisor of zero fails, the
one quotient that leaves the range wraps to the dividend, and all other ones are exact
(`Op.dividesWith`).
-/

namespace Treewalk

/-- Whether an integer lies in the 32-bit range. -/
def Value.IsInt32 (n : Int) : Prop := Value.intMin ≤ n ∧ n ≤ Value.intMax

instance (n : Int) : Decidable (Value.IsInt32 n) := inferInstanceAs (Decidable (_ ∧ _))

/-- An integer of the range is read from its word. -/
theorem Value.toInt_ofInt {n : Int} (h : Value.IsInt32 n) : (BitVec.ofInt 32 n).toInt = n := by
  rw [BitVec.toInt_ofInt]
  exact Value.wrap_of_mem h

/-- A word is read as an integer of the range. -/
theorem Value.isInt32_toInt (x : BitVec 32) : Value.IsInt32 x.toInt := by
  have hlow := x.le_toInt
  have hhigh := x.toInt_lt
  unfold Value.IsInt32 Value.intMin Value.intMax
  omega

namespace Op

/-- What an operation computes on words: arithmetic modulo `2^32`, signed division that is cut
toward zero, and signed comparison. A division by zero computes nothing. -/
def onWords (op : Op) (x y : BitVec 32) : Option Value :=
  match op with
  | add => some (.int (x + y).toInt)
  | sub => some (.int (x - y).toInt)
  | mul => some (.int (x * y).toInt)
  | div => if y = 0 then none else some (.int (x.sdiv y).toInt)
  | mod => if y = 0 then none else some (.int (x.srem y).toInt)
  | gt => some (.bool (y.slt x))
  | ge => some (.bool (y.sle x))
  | lt => some (.bool (x.slt y))
  | le => some (.bool (x.sle y))
  | eq => some (.bool (x == y))

theorem toInt_eq_zero_iff {y : BitVec 32} : y.toInt = 0 ↔ y = 0 :=
  BitVec.toInt_inj (y := 0)

/-- A remainder of integers of the range lies in the range. -/
theorem isInt32_tmod {a b : Int} (hb : Value.IsInt32 b) (h : b ≠ 0) :
    Value.IsInt32 (a.tmod b) := by
  have hsmall := (truncates_tdiv a h).small
  unfold Value.IsInt32 Value.intMin Value.intMax at *
  omega

/-- **The operators compute on integers what they compute on the words that are read as them.** -/
theorem compute_toInt (op : Op) (x y : BitVec 32) :
    op.compute x.toInt y.toInt = op.onWords x y := by
  cases op with
  | add => rw [compute, onWords, BitVec.toInt_add]; rfl
  | sub => rw [compute, onWords, BitVec.toInt_sub]; rfl
  | mul => rw [compute, onWords, BitVec.toInt_mul]; rfl
  | div =>
    simp only [compute, onWords, toInt_eq_zero_iff, BitVec.toInt_sdiv]
    rfl
  | mod =>
    simp only [compute, onWords, toInt_eq_zero_iff, BitVec.toInt_srem]
    split
    · rfl
    · next hy =>
      have hrange := isInt32_tmod (a := x.toInt) (Value.isInt32_toInt y)
        (mt toInt_eq_zero_iff.mp hy)
      rw [Value.ofInt, Value.wrap_of_mem hrange]
  | gt => rw [compute, onWords, BitVec.slt_eq_decide]
  | ge => rw [compute, onWords, BitVec.sle_eq_decide]
  | lt => rw [compute, onWords, BitVec.slt_eq_decide]
  | le => rw [compute, onWords, BitVec.sle_eq_decide]
  | eq =>
    simp only [compute, onWords, BitVec.toInt_inj]
    rfl

theorem compute_eq_onWords (op : Op) {a b : Int} (ha : Value.IsInt32 a) (hb : Value.IsInt32 b) :
    op.compute a b = op.onWords (.ofInt 32 a) (.ofInt 32 b) := by
  rw [← compute_toInt, Value.toInt_ofInt ha, Value.toInt_ofInt hb]

/-! ## Division -/

/-- The laws of division of two integers of the 32-bit range. -/
structure DividesWith (a b : Int) : Prop where
  byZero : ∀ op, op = div ∨ op = mod → (op.compute a b = none ↔ b = 0)
  leastByMinusOne : a = Value.intMin → b = -1 →
    div.compute a b = some (.int Value.intMin) ∧ mod.compute a b = some (.int 0)
  exact : b ≠ 0 → ¬(a = Value.intMin ∧ b = -1) →
    ∃ q r, div.compute a b = some (.int q) ∧ mod.compute a b = some (.int r) ∧
      r.natAbs < b.natAbs ∧ (r = 0 ∨ r.sign = a.sign) ∧ b * q + r = a

/-- Only one quotient of integers of the range leaves the range. -/
theorem isInt32_tdiv {a b : Int} (ha : Value.IsInt32 a) (h : ¬(a = Value.intMin ∧ b = -1)) :
    Value.IsInt32 (a.tdiv b) := by
  have habs : (a.tdiv b).natAbs = a.natAbs / b.natAbs := Int.natAbs_tdiv a b
  unfold Value.IsInt32 Value.intMin Value.intMax at *
  by_cases hb : b.natAbs ≤ 1
  · -- The quotient is zero, the dividend, or its negative.
    obtain rfl | rfl | rfl : b = 0 ∨ b = 1 ∨ b = -1 := by omega
    · rw [Int.tdiv_zero]
      omega
    · rw [Int.tdiv_one]
      omega
    · rw [Int.tdiv_neg, Int.tdiv_one]
      omega
  · have hhalf : a.natAbs / b.natAbs ≤ a.natAbs / 2 := Nat.div_le_div_left (by omega) (by omega)
    omega

/-- **Division of integers of the range** obeys the laws of division. -/
theorem dividesWith {a b : Int} (ha : Value.IsInt32 a) (hb : Value.IsInt32 b) :
    DividesWith a b where
  byZero op hop := by
    rw [compute_eq_none_iff]
    exact and_iff_right hop
  leastByMinusOne := by
    rintro rfl rfl
    exact ⟨rfl, rfl⟩
  exact h h' := by
    have ht := truncates_tdiv a h
    refine ⟨a.tdiv b, a.tmod b, ?_, ?_, ht.small, ?_, ht.eq.symm⟩
    · rw [compute, if_neg h, Value.ofInt, Value.wrap_of_mem (isInt32_tdiv ha h')]
    · rw [compute, if_neg h, Value.ofInt, Value.wrap_of_mem (isInt32_tmod hb h)]
    · have hsign := Int.sign_tmod a b
      split at hsign
      · exact .inl (Int.sign_eq_zero_iff_zero.mp hsign)
      · exact .inr hsign

end Op

end Treewalk
