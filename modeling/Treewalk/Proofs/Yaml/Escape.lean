import Mathlib.Algebra.Group.Nat.Defs
import Treewalk.Proofs.Text.CodePoint
import Treewalk.Proofs.Yaml.Single

/-!
# Escapes

Every escape of a code point is read back as the code point: the short ones by their letter, and the
others by their hexadecimal digits, of which there are always enough.
-/

namespace Treewalk.Yaml

open Text Cursor

/-! ## Hexadecimal digits -/

/-- The written form of a digit. -/
theorem hexValue?_digitChar {m : Nat} (h : m < 16) :
    Json.hexValue? m.digitChar.toUpper = some m ∧ IsPrint m.digitChar.toUpper := by
  have all : ∀ m ∈ List.range 16,
      Json.hexValue? m.digitChar.toUpper = some m ∧ IsPrint m.digitChar.toUpper := by decide
  exact all m (List.mem_range.mpr h)

theorem hexNumber?_append (cs : List Char) (c : Char) :
    hexNumber? (cs ++ [c]) = do return (← hexNumber? cs) * 16 + (← Json.hexValue? c) := by
  simp [hexNumber?]

/-- The digits of a number in base 16, in capital letters. -/
theorem hexNumber?_toDigits (n : Nat) :
    hexNumber? ((Nat.toDigits 16 n).map Char.toUpper) = some n ∧
      ∀ c ∈ (Nat.toDigits 16 n).map Char.toUpper, IsPrint c := by
  induction n using Nat.strongRecOn with
  | _ n ih =>
    rw [Nat.toDigits_eq_if (by decide)]
    split
    · next h =>
      obtain ⟨hvalue, hprint⟩ := hexValue?_digitChar h
      simp [hexNumber?, hvalue, hprint]
    · next h =>
      obtain ⟨hdigits, hall⟩ := ih (n / 16) (by omega)
      obtain ⟨hvalue, hprint⟩ := hexValue?_digitChar (Nat.mod_lt n (by decide : 0 < 16))
      rw [List.map_append, List.map_singleton, hexNumber?_append, hdigits, hvalue]
      refine ⟨congrArg some (Nat.div_add_mod' n 16), ?_⟩
      exact List.forall_mem_append.mpr ⟨hall, by simpa using hprint⟩

theorem hexNumber?_zeros (k : Nat) (cs : List Char) :
    hexNumber? (List.replicate k '0' ++ cs) = hexNumber? cs := by
  induction k with
  | zero => rfl
  | succ k ih => exact ih

/-- The number of an escape in its digits. -/
theorem hexNumber?_hexPadded {width n : Nat} (hwidth : 0 < width) (hn : n < 16 ^ width) :
    hexNumber? ((hexPadded width n).map Char.toUpper) = some n ∧
      (∀ c ∈ (hexPadded width n).map Char.toUpper, IsPrint c) ∧
      ((hexPadded width n).map Char.toUpper).length = width := by
  have hlength := (Nat.length_toDigits_le_iff (n := n) (by decide : 1 < 16) hwidth).mpr hn
  obtain ⟨hdigits, hprint⟩ := hexNumber?_toDigits n
  unfold hexPadded
  rw [List.map_append, List.map_replicate, show '0'.toUpper = '0' by decide]
  refine ⟨by rw [hexNumber?_zeros, hdigits],
    List.forall_mem_append.mpr ⟨fun c hc => ?_, hprint⟩, ?_⟩
  · rw [List.eq_of_mem_replicate hc]
    decide
  · simp only [List.length_append, List.length_replicate, List.length_map]
    omega

/-! ## Escapes -/

/-- Short escapes stand for their characters. -/
theorem letterEscape?_of_shortEscape? {c letter : Char} (h : shortEscape? c = some letter) :
    letterEscape? letter = some c ∧ IsPrint letter := by
  obtain ⟨before, after, heq, -⟩ := List.lookup_eq_some_iff.mp h
  have hmem : (c, letter) ∈ before ++ (c, letter) :: after := by simp
  rw [← heq] at hmem
  have all : ∀ pair ∈ [('\x00', '0'), ('\x07', 'a'), ('\x08', 'b'), ('\t', 't'), ('\n', 'n'),
      ('\x0B', 'v'), ('\x0C', 'f'), ('\r', 'r'), ('\x1B', 'e'), ('"', '"'), ('\\', '\\'),
      ('\x85', 'N'), ('\xA0', '_'), ('\u2028', 'L'), ('\u2029', 'P')],
      letterEscape? pair.2 = some pair.1 ∧ IsPrint pair.2 := by decide
  exact all (c, letter) hmem

variable {c : Cursor} {rest : List Char} {column : Nat}

/-- An escape by the number of a code point. -/
theorem readEscape_digits {x : Char} {width : Nat} {digits : List Char} {p : CodePoint}
    (hletter : letterEscape? x = none) (hwidth : escapeWidth? x = some width)
    (hdigits : hexNumber? digits = some p.toNat) (hlength : digits.length = width)
    (hc : c.rest = x :: (digits ++ rest)) :
    readEscape c = .ok ([p], c.advanceBy (1 + width)) := by
  have hlt := p.toNat_lt
  have hpeek : c.peek = some x := by rw [peek, hc]; rfl
  have htake : (c.rest.drop 1).take width = digits := by
    rw [hc, ← hlength]
    simp
  unfold readEscape
  rw [hpeek]
  dsimp only
  rw [hletter]
  dsimp only
  rw [hwidth]
  dsimp only
  rw [htake, if_pos hlength, hdigits]
  dsimp only
  rw [if_neg (by omega), if_neg (by omega), p.ofNat_toNat]

/-- What stands behind the backslash of an escape: it is printable, and it is read as the escaped
code point. -/
def Escapes (p : CodePoint) (body : List Char) : Prop :=
  body ≠ [] ∧ (∀ x ∈ body, IsPrint x) ∧ ∀ {c rest column}, Before c (body ++ rest) column →
    readEscape c = .ok ([p], c.advanceBy body.length)

theorem escapes_digits {x : Char} {width : Nat} {p : CodePoint} (hx : IsPrint x)
    (hletter : letterEscape? x = none) (hwidth : escapeWidth? x = some width) (hpos : 0 < width)
    (hp : p.toNat < 16 ^ width) : Escapes p (x :: (hexPadded width p.toNat).map Char.toUpper) := by
  obtain ⟨hdigits, hprint, hlength⟩ := hexNumber?_hexPadded hpos hp
  refine ⟨by simp, List.forall_mem_cons.mpr ⟨hx, hprint⟩, fun {c _ _} hc => ?_⟩
  rw [readEscape_digits hletter hwidth hdigits hlength hc.rest_eq, List.length_cons, hlength,
    Nat.add_comm]

/-- **An escape is read back as its code point.** -/
theorem exists_escapes (p : CodePoint) : ∃ body, escapeText p = '\\' :: body ∧ Escapes p body := by
  unfold escapeText
  cases hshort : p.toChar?.bind shortEscape? with
  | some letter =>
    obtain ⟨x, hx, hletter⟩ := Option.bind_eq_some_iff.mp hshort
    obtain ⟨hread, hprint⟩ := letterEscape?_of_shortEscape? hletter
    obtain rfl : p = .char x := by
      cases p <;> simp_all [CodePoint.toChar?]
    refine ⟨[letter], rfl, by simp, by simpa using hprint, fun {c} _ _ hc => ?_⟩
    have hpeek : c.peek = some letter := hc.peek_eq
    unfold readEscape
    rw [hpeek]
    dsimp only
    rw [hread]
    rfl
  | none =>
    have hlt := p.toNat_lt
    dsimp only
    split
    · exact ⟨_, rfl, escapes_digits (by decide) rfl rfl (by decide) (by omega)⟩
    · split
      · exact ⟨_, rfl, escapes_digits (by decide) rfl rfl (by decide) (by omega)⟩
      · exact ⟨_, rfl, escapes_digits (by decide) rfl rfl (by decide) (by omega)⟩

end Treewalk.Yaml
