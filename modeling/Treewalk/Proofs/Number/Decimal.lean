import Mathlib.Data.List.TakeWhile
import Treewalk.Expr.Basic
import Treewalk.Number.Integer

/-!
# Decimal numerals

The written form of an integer consists of digits of ASCII behind a sign, and starts with a zero
only if it is one. It is read as the integer again, unless it has too many digits
(`readInt_renderInt`).
-/

namespace Treewalk.Number

open Text

/-! ## Digits -/

/-- A text of one or more digits of ASCII. -/
structure IsNumeral (ds : List Char) : Prop where
  ne_nil : ds ≠ []
  digits : ∀ c ∈ ds, c.isDigit = true
  no_zero : ds.head? = some '0' → ds = ['0']

theorem isNumeral_toDigits (n : Nat) : IsNumeral (Nat.toDigits 10 n) where
  ne_nil := Nat.toDigits_ne_nil
  digits _ hc := Nat.isDigit_of_mem_toDigits (by decide) (by decide) hc
  no_zero h := by
    -- A number of several digits starts with the first digit of its tenth.
    have hzero : n = 0 := by
      induction n using Nat.strongRecOn with
      | ind n ih =>
        rw [Nat.toDigits_eq_if (by decide)] at h
        split at h
        · next hlt =>
          have all : ∀ m ∈ List.range 10, m.digitChar = '0' → m = 0 := by decide
          exact all n (List.mem_range.mpr hlt) (Option.some.inj h)
        · next hge =>
          rw [List.head?_append,
            Option.or_of_isSome (List.isSome_head?.mpr Nat.toDigits_ne_nil)] at h
          have htenth := ih (n / 10) (by omega) h
          omega
    rw [hzero]
    rfl

/-- A digit of ASCII. -/
theorem digit_spec {c : Char} (h : c.isDigit = true) :
    48 ≤ c.toNat ∧ c.toNat ≤ 57 ∧ digitIn? 10 c = some (c.toNat - 48) := by
  have hle : '0' ≤ c ∧ c ≤ '9' := by
    rw [Char.isDigit, Bool.and_eq_true, decide_eq_true_eq, decide_eq_true_eq] at h
    exact h
  have hlow : 48 ≤ c.toNat := hle.1
  have hhigh : c.toNat ≤ 57 := hle.2
  refine ⟨hlow, hhigh, ?_⟩
  have hvalue : decimalValue? c = some (c.toNat - 48) := by
    unfold decimalValue?
    rw [if_pos (by omega), if_pos hle]
    rfl
  unfold digitIn?
  rw [hvalue]
  simp
  omega

theorem isDigitPart_of_isDigit {c : Char} (h : c.isDigit = true) : isDigitPart 10 c = true := by
  unfold isDigitPart
  rw [(digit_spec h).2.2]
  exact Bool.or_true _

theorem digitValues?_digits {ds : List Char} (hne : ds ≠ [])
    (hdigits : ∀ c ∈ ds, c.isDigit = true) :
    digitValues? 10 ds = some (ds.map fun c => c.toNat - 48) := by
  induction ds with
  | nil => exact absurd rfl hne
  | cons c ds ih =>
    obtain ⟨hc, hds⟩ := List.forall_mem_cons.mp hdigits
    have hvalue := (digit_spec hc).2.2
    cases ds with
    | nil => simp [digitValues?, hvalue]
    | cons d ds =>
      have hd : d ≠ '_' := by
        rintro rfl
        exact absurd (hds '_' List.mem_cons_self) (by decide)
      simp [digitValues?, hvalue, hd, ih (List.cons_ne_nil d ds) hds]

theorem ofDigitValues_digits (ds : List Char) :
    ofDigitValues 10 (ds.map fun c => c.toNat - 48) = Nat.ofDigitChars 10 ds 0 := by
  unfold ofDigitValues Nat.ofDigitChars
  rw [List.foldl_map]
  simp [Nat.mul_comm]

/-! ## Integers -/

/-- The sign of a written integer. -/
def signText (n : Int) : List Char := if n < 0 then ['-'] else []

/-- A written integer is a numeral behind a sign. -/
theorem renderInt_eq (n : Int) : renderInt n = signText n ++ Nat.toDigits 10 n.natAbs := by
  cases n with
  | ofNat n =>
    unfold signText
    rw [if_neg (by simp)]
    rfl
  | negSucc n =>
    unfold signText
    rw [if_pos (Int.negSucc_lt_zero n)]
    rfl

/-- A literal has ten digits at most. -/
theorem hasFewDigits_of_literal {n : Int} (h : Value.intMin ≤ n ∧ n ≤ Value.intMax) :
    hasFewDigits n = true := by
  have hsmall : n.natAbs < 10 ^ 10 := by
    unfold Value.intMin Value.intMax at h
    omega
  have hlimit : 10 ≤ digitLimit := by decide
  unfold hasFewDigits leastLong
  generalize digitLimit = k at hlimit
  exact decide_eq_true (Nat.lt_of_lt_of_le hsmall (Nat.pow_le_pow_right (by decide) hlimit))

theorem length_toDigits_le {n : Int} (h : hasFewDigits n = true) :
    (Nat.toDigits 10 n.natAbs).length ≤ digitLimit := by
  have hpos : 0 < digitLimit := by decide
  have hlt : n.natAbs < leastLong := of_decide_eq_true h
  unfold leastLong at hlt
  generalize digitLimit = k at hpos hlt ⊢
  exact (Nat.length_toDigits_le_iff (by decide) hpos).mpr hlt

theorem dropBaseMark_ten (cs : List Char) : dropBaseMark 10 cs = cs := by
  unfold dropBaseMark
  split
  · rw [if_neg (by simp)]
  · rfl

variable {n : Int} {ds : List Char}

/-- The first character of a numeral. -/
theorem IsNumeral.exists_cons (h : IsNumeral ds) :
    ∃ c rest, ds = c :: rest ∧ c.isDigit = true ∧ ∀ d ∈ rest, d.isDigit = true := by
  obtain ⟨c, rest, rfl⟩ := List.exists_cons_of_ne_nil h.ne_nil
  exact ⟨c, rest, rfl, List.forall_mem_cons.mp h.digits⟩

/-- A written integer consists of digits, and a dash may stand in front of them. -/
theorem exists_cons_numeral (h : IsNumeral ds) (n : Int) : ∃ x tail, signText n ++ ds = x :: tail ∧
    (x.isDigit = true ∨ x = '-' ∧ tail ≠ []) ∧ ∀ c ∈ tail, c.isDigit = true := by
  obtain ⟨c, rest, rfl, hc, hrest⟩ := h.exists_cons
  unfold signText
  split
  · exact ⟨'-', c :: rest, rfl, .inr ⟨rfl, List.cons_ne_nil _ _⟩,
      List.forall_mem_cons.mpr ⟨hc, hrest⟩⟩
  · exact ⟨c, rest, rfl, .inl hc, hrest⟩

theorem takeSign_numeral (h : IsNumeral ds) :
    takeSign (signText n ++ ds) = (decide (n < 0), ds) := by
  obtain ⟨c, rest, rfl, hc, -⟩ := h.exists_cons
  unfold signText
  by_cases hneg : n < 0
  · rw [if_pos hneg, decide_eq_true hneg]
    rfl
  · rw [if_neg hneg, decide_eq_false hneg, List.nil_append]
    unfold takeSign
    split
    · next heq =>
      cases heq
      exact absurd hc (by decide)
    · next heq =>
      cases heq
      exact absurd hc (by decide)
    · rfl

/-- A written integer starts with no blank. -/
theorem dropBlanks_numeral (h : IsNumeral ds) :
    (signText n ++ ds).dropWhile isNumeralBlank = signText n ++ ds := by
  obtain ⟨c, rest, rfl, hc, -⟩ := h.exists_cons
  unfold signText
  by_cases hneg : n < 0
  · rw [if_pos hneg]
    rfl
  · rw [if_neg hneg, List.nil_append, List.dropWhile_cons_of_neg]
    obtain ⟨hlow, hhigh, -⟩ := digit_spec hc
    simp [isNumeralBlank, isBlank]
    omega

/-- **A written integer is read as itself, unless it has too many digits.** -/
theorem readInt_renderInt {n : Int} (h : hasFewDigits n = true) :
    readInt 10 (renderInt n) = .ok n := by
  have hnum := isNumeral_toDigits n.natAbs
  have hlength := length_toDigits_le h
  have hvalue : Nat.ofDigitChars 10 (Nat.toDigits 10 n.natAbs) 0 = n.natAbs :=
    Nat.ofDigitChars_ten_toDigits
  rw [renderInt_eq]
  generalize Nat.toDigits 10 n.natAbs = ds at hnum hlength hvalue
  have hpart : ∀ c ∈ ds, isDigitPart 10 c = true := fun c hc =>
    isDigitPart_of_isDigit (hnum.digits c hc)
  unfold readInt
  rw [dropBlanks_numeral hnum, takeSign_numeral hnum]
  dsimp only
  rw [dropBaseMark_ten, List.takeWhile_eq_self_iff.mpr hpart, List.dropWhile_eq_nil_iff.mpr hpart,
    digitValues?_digits hnum.ne_nil hnum.digits]
  dsimp only
  rw [if_neg (by simp; omega), ofDigitValues_digits, hvalue]
  refine congrArg Except.ok ?_
  by_cases hneg : n < 0
  · rw [decide_eq_true hneg, if_pos rfl]
    omega
  · rw [decide_eq_false hneg, if_neg Bool.false_ne_true]
    omega

end Treewalk.Number
