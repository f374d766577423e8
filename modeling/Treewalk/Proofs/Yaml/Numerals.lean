import Treewalk.Proofs.Number.Decimal
import Treewalk.Proofs.Yaml.KeyWords
import Treewalk.Yaml.ScalarValue

/-!
# Integers as plain scalars

A written integer is told from everything else by its form, and can be written plain. It is read as
the integer, because no prefix makes it a numeral of another base.
-/

namespace Treewalk.Yaml

open Number Text

variable {n : Int} {ds : List Char}

/-! ## The form -/

theorem unsigned_numeral (h : IsNumeral ds) (n : Int) : Tag.unsigned (signText n ++ ds) = ds := by
  obtain ⟨c, rest, rfl, hc, -⟩ := h.exists_cons
  unfold signText
  split
  · rfl
  · rw [List.nil_append]
    unfold Tag.unsigned
    split
    · next heq =>
      cases heq
      exact absurd hc (by decide)
    · next heq =>
      cases heq
      exact absurd hc (by decide)
    · rfl

theorem dropWhile_digits {rest : List Char} (hrest : ∀ d ∈ rest, d.isDigit = true) :
    rest.dropWhile (Tag.isDigitOr '_') = [] :=
  List.dropWhile_eq_nil_iff.mpr fun c hc => by simp [Tag.isDigitOr, hrest c hc]

/-- The first character of a written integer is no letter and no point. -/
theorem ofList_notMem (words : List String) (hwords : ∀ w ∈ words, ∀ x ∈ w.toList.take 1,
      x.isDigit = false ∧ x ≠ '-') {x : Char} {tail : List Char}
    (hx : x.isDigit = true ∨ x = '-') : String.ofList (x :: tail) ∉ words := by
  intro hmem
  obtain ⟨hdigit, hdash⟩ := hwords _ hmem x (by simp)
  rcases hx with hx | hx
  · rw [hx] at hdigit
    cases hdigit
  · exact hdash hx

theorem isFloat_numeral (h : IsNumeral ds) (n : Int) : Tag.isFloat (signText n ++ ds) = false := by
  obtain ⟨c, rest, rfl, hc, hrest⟩ := h.exists_cons
  obtain ⟨x, tail, heq, hx, -⟩ := exists_cons_numeral h n
  have hword : ¬(String.ofList (c :: rest) = ".inf" ∨ String.ofList (c :: rest) = ".Inf" ∨
      String.ofList (c :: rest) = ".INF") := by
    simpa using ofList_notMem [".inf", ".Inf", ".INF"] (by decide) (.inl hc)
  unfold Tag.isFloat
  rw [unsigned_numeral h]
  dsimp only
  rw [if_neg hword, heq]
  split
  · next hpoint =>
    cases hpoint
    rcases hx with hx | ⟨hx, -⟩ <;> exact absurd hx (by decide)
  · rw [dropWhile_digits hrest]
    exact Bool.and_false _

theorem isInt_numeral (h : IsNumeral ds) (n : Int) : Tag.isInt (signText n ++ ds) = true := by
  unfold Tag.isInt
  rw [unsigned_numeral h]
  split
  · rfl
  · exact nomatch h.no_zero rfl
  · exact nomatch h.no_zero rfl
  · exact nomatch h.no_zero rfl
  · next c rest _ _ _ _ =>
    obtain ⟨hc, hrest⟩ := List.forall_mem_cons.mp h.digits
    rw [hc, dropWhile_digits hrest]
    rfl
  · exact absurd rfl h.ne_nil

/-- **A written integer has the tag of integers.** -/
theorem ofChars_renderInt (n : Int) : Tag.ofChars (renderInt n) = .int := by
  have hnum := isNumeral_toDigits n.natAbs
  have hfloat := isFloat_numeral hnum n
  have hint := isInt_numeral hnum n
  obtain ⟨x, tail, heq, hx, htail⟩ := exists_cons_numeral hnum n
  rw [renderInt_eq]
  rw [heq] at hfloat hint ⊢
  have hlast : (x :: tail).getLast? ≠ some '\n' := by
    intro hlast
    rcases List.mem_cons.mp (List.mem_of_getLast? hlast) with rfl | hmem
    · rcases hx with hx | ⟨hx, -⟩ <;> exact absurd hx (by decide)
    · exact absurd (htail _ hmem) (by decide)
  have hswitch : Tag.switchWords.contains (String.ofList (x :: tail)) = false := by
    rw [Bool.eq_false_iff, Ne, List.contains_iff_mem]
    exact ofList_notMem _ (by decide) (hx.imp_right And.left)
  unfold Tag.ofChars
  rw [if_neg hlast]
  dsimp only
  rw [hswitch, if_neg Bool.false_ne_true, hfloat, if_neg Bool.false_ne_true, hint, if_pos rfl]

theorem allowsPlain_renderInt (inFlow : Bool) (n : Int) :
    allowsPlain inFlow (renderInt n) = true := by
  obtain ⟨x, tail, heq, hx, htail⟩ := exists_cons_numeral (isNumeral_toDigits n.natAbs) n
  rw [renderInt_eq, heq]
  exact allowsPlain_of_harmless (hx.imp_left isHarmless_of_digit)
    (fun c hc => isHarmless_of_digit (htail c hc)) inFlow

/-! ## The value -/

theorem dropUnderscores_numeral (h : IsNumeral ds) (n : Int) :
    dropUnderscores (ofChars (signText n ++ ds)) = ofChars (signText n ++ ds) := by
  obtain ⟨x, tail, heq, hx, htail⟩ := exists_cons_numeral h n
  rw [heq]
  refine List.filter_eq_self.mpr fun p hp => ?_
  obtain ⟨c, hc, rfl⟩ := List.mem_map.mp hp
  have hne : c ≠ '_' := by
    rintro rfl
    rcases List.mem_cons.mp hc with rfl | hc
    · rcases hx with hx | ⟨hx, -⟩ <;> exact absurd hx (by decide)
    · exact absurd (htail _ hc) (by decide)
  simp [hne]

theorem takeSign_ofChars (h : IsNumeral ds) (n : Int) :
    (ofChars (signText n ++ ds)).takeSign = (decide (n < 0), ofChars ds) := by
  obtain ⟨c, rest, rfl, hc, -⟩ := h.exists_cons
  unfold signText
  by_cases hneg : n < 0
  · rw [if_pos hneg, decide_eq_true hneg]
    rfl
  · rw [if_neg hneg, decide_eq_false hneg, List.nil_append]
    unfold Text.takeSign
    split
    · next heq =>
      cases heq
      exact absurd hc (by decide)
    · next heq =>
      cases heq
      exact absurd hc (by decide)
    · rfl

theorem readIntIn_eq {base : Nat} (hread : readInt base ds = .ok n) :
    readIntIn base (ofChars ds) = .ok n := by
  unfold readIntIn
  rw [toChars_ofChars, hread]

/-- **A written integer has itself as its value, unless it has too many digits.** -/
theorem intValue_renderInt (h : hasFewDigits n = true) :
    intValue (ofChars (renderInt n)) = .ok n := by
  have hnum := isNumeral_toDigits n.natAbs
  have hread : readInt 10 (Nat.toDigits 10 n.natAbs) = .ok (n.natAbs : Int) :=
    readInt_renderInt (n := (n.natAbs : Int)) h
  have hsign : (if decide (n < 0) then -(n.natAbs : Int) else n.natAbs) = n := by
    by_cases hneg : n < 0
    · rw [decide_eq_true hneg, if_pos rfl]
      omega
    · rw [decide_eq_false hneg, if_neg Bool.false_ne_true]
      omega
  rw [renderInt_eq]
  generalize Nat.toDigits 10 n.natAbs = ds at hnum hread
  have hzero {t : Text} (ht : ofChars ds = .char '0' :: t) : ds = ['0'] := by
    obtain ⟨c, rest, rfl⟩ := List.exists_cons_of_ne_nil hnum.ne_nil
    cases ht
    exact hnum.no_zero rfl
  have hcolon : (ofChars ds).contains (.char ':') = false := by
    rw [Bool.eq_false_iff, Ne, List.contains_iff_mem]
    intro hmem
    obtain ⟨c, hc, heq⟩ := List.mem_map.mp hmem
    cases heq
    exact absurd (hnum.digits _ hc) (by decide)
  unfold intValue
  rw [dropUnderscores_numeral hnum, takeSign_ofChars hnum]
  dsimp only
  split
  · next hnil => exact absurd (List.map_eq_nil_iff.mp hnil) hnum.ne_nil
  · next heq =>
    obtain rfl := hzero heq
    have hten : readInt 10 ['0'] = .ok 0 := rfl
    rw [← Except.ok.inj (hten.symm.trans hread)] at hsign
    exact congrArg Except.ok hsign
  · next heq => rw [hzero heq] at heq; exact nomatch heq
  · next heq => rw [hzero heq] at heq; exact nomatch heq
  · next hmore _ _ heq =>
    rw [hzero heq] at heq
    exact absurd (List.cons.inj heq).2.symm hmore
  · rw [hcolon, if_neg Bool.false_ne_true, readIntIn_eq hread]
    exact congrArg Except.ok hsign

end Treewalk.Yaml
