import Treewalk.Text.CodePoint

/-!
# Code points and texts

A code point is given by its number, and no number lies beyond the last plane. A text that has
characters is made of them.
-/

namespace Treewalk

namespace CodePoint

/-- A code point is the one with its number. -/
theorem ofNat_toNat (p : CodePoint) : ofNat p.toNat = p := by
  cases p with
  | char c =>
    have hvalid : ¬(firstSurrogate ≤ c.toNat ∧ c.toNat - firstSurrogate < 0x800) := by
      have hc : c.toNat < 0xD800 ∨ 0xDFFF < c.toNat ∧ c.toNat < 0x110000 := c.valid
      unfold firstSurrogate
      omega
    rw [toNat, ofNat, dif_neg hvalid, Char.ofNat_toNat]
  | surrogate n =>
    have hvalid : firstSurrogate ≤ firstSurrogate + n ∧
        firstSurrogate + n - firstSurrogate < 0x800 := by omega
    rw [toNat, ofNat, dif_pos hvalid]
    simp

/-- No code point has a number beyond the last plane. -/
theorem toNat_lt (p : CodePoint) : p.toNat < 0x110000 := by
  cases p with
  | char c =>
    have hc : c.toNat < 0xD800 ∨ 0xDFFF < c.toNat ∧ c.toNat < 0x110000 := c.valid
    simp only [toNat]
    omega
  | surrogate n =>
    simp only [toNat, firstSurrogate]
    omega

end CodePoint

namespace Text

/-- The characters of a text without surrogates make up the text. -/
theorem eq_ofChars_of_toChars? {t : Text} {cs : List Char} (h : t.toChars? = some cs) :
    t = ofChars cs := by
  unfold toChars? at h
  induction t generalizing cs with
  | nil =>
    cases h
    rfl
  | cons p t ih =>
    rw [List.mapM_cons] at h
    obtain ⟨c, hc, h⟩ := Option.bind_eq_some_iff.mp h
    obtain ⟨rest, hrest, h⟩ := Option.bind_eq_some_iff.mp h
    cases h
    cases p with
    | char c' =>
      cases hc
      rw [ih hrest]
      rfl
    | surrogate n => cases hc

/-- A text that has a string is made of it. -/
theorem eq_ofString_of_toString? {t : Text} {s : String} (h : t.toString? = some s) :
    t = ofString s := by
  obtain ⟨cs, hcs, rfl⟩ := Option.map_eq_some_iff.mp h
  rw [eq_ofChars_of_toChars? hcs, ofString, String.toList_ofList]

end Text

end Treewalk
