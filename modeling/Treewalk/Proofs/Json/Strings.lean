import Mathlib.Data.List.Forall2
import Treewalk.Json.Text
import Treewalk.Proofs.Text.CodePoint

/-!
# JSON strings are read back

A written string is read as the text that it was written from, whatever follows its closing quote
(`readText_written`). Each code point is read back as one piece: a control character without a
letter of its own as a unit, and all others as themselves. A control character is no half of a
surrogate pair, and surrogates are written as they are, so no two pieces are joined to one
character.
-/

namespace Treewalk.Json

open Text

/-! ## Control characters by their number -/

/-- Four digits for a control character: the first two are zero. -/
theorem hexPadded_control {n : Nat} (h : n < 0x20) :
    hexPadded 4 n = ['0', '0', Nat.digitChar (n / 16), Nat.digitChar (n % 16)] ∧
      unit? '0' '0' (Nat.digitChar (n / 16)) (Nat.digitChar (n % 16)) = some n := by
  have all : ∀ n ∈ List.range 0x20,
      hexPadded 4 n = ['0', '0', Nat.digitChar (n / 16), Nat.digitChar (n % 16)] ∧
        unit? '0' '0' (Nat.digitChar (n / 16)) (Nat.digitChar (n % 16)) = some n := by decide
  exact all n (List.mem_range.mpr h)

/-- A control character is no half of a pair. -/
theorem ofPieces_control {n : Nat} (h : n < 0x20) (rest : List Piece) :
    ofPieces (.unit n :: rest) = .ofNat n :: ofPieces rest := by
  have hhigh : isHighSurrogate n = false := by
    simp [isHighSurrogate]
    omega
  cases rest with
  | nil => rfl
  | cons piece rest =>
    cases piece with
    | plain => rfl
    | unit low => rw [ofPieces, hhigh, Bool.false_and, if_neg Bool.false_ne_true]

/-! ## One code point -/

/-- A character is written as itself, or by a letter, or by its number. -/
theorem escapeChar_cases (c : Char) :
    (escapeChar c = [c] ∧ 0x20 ≤ c.toNat ∧ c ≠ '"' ∧ c ≠ '\\') ∨
    (∃ letter, escapeChar c = ['\\', letter] ∧ letter ≠ 'u' ∧ letterEscape? letter = some c) ∨
    (escapeChar c = ['\\', 'u'] ++ hexPadded 4 c.toNat ∧ c.toNat < 0x20) := by
  unfold escapeChar
  split
  · next h => exact .inr (.inl ⟨_, rfl, by decide, by rw [h]; rfl⟩)
  split
  · next h => exact .inr (.inl ⟨_, rfl, by decide, by rw [h]; rfl⟩)
  split
  · next h => exact .inr (.inl ⟨_, rfl, by decide, by rw [h]; rfl⟩)
  split
  · next h => exact .inr (.inl ⟨_, rfl, by decide, by rw [h]; rfl⟩)
  split
  · next h => exact .inr (.inl ⟨_, rfl, by decide, by rw [h]; rfl⟩)
  split
  · next h => exact .inr (.inl ⟨_, rfl, by decide, congrArg some (Char.toNat_inj.mp h.symm)⟩)
  split
  · next h => exact .inr (.inl ⟨_, rfl, by decide, congrArg some (Char.toNat_inj.mp h.symm)⟩)
  split
  · next h => exact .inr (.inr ⟨rfl, h⟩)
  · next hquote hslash _ _ _ _ _ h => exact .inl ⟨rfl, Nat.le_of_not_lt h, hquote, hslash⟩

/-- The piece as which a written code point is read. -/
inductive IsPieceOf : CodePoint → Piece → Prop where
  | plain (p : CodePoint) : IsPieceOf p (.plain p)
  | control (c : Char) : c.toNat < 0x20 → IsPieceOf (.char c) (.unit c.toNat)

theorem readPieces_plain {p : CodePoint} (hp : 0x20 ≤ p.toNat) (hquote : p ≠ .char '"')
    (hslash : p ≠ .char '\\') (rest : Text) :
    readPieces (p :: rest) = (readPieces rest).map fun r => (.plain p :: r.1, r.2) := by
  rw [readPieces, if_neg (by simp [hslash]; omega)]
  · cases readPieces rest <;> rfl
  · exact hquote
  · exact fun _ _ _ _ _ h _ => hslash h
  · exact fun _ _ h _ => hslash h

theorem readPieces_letter {letter c : Char} (hu : letter ≠ 'u') (h : letterEscape? letter = some c)
    (rest : Text) : readPieces (.char '\\' :: .char letter :: rest) =
      (readPieces rest).map fun r => (.plain (.char c) :: r.1, r.2) := by
  rw [readPieces, h]
  · cases readPieces rest <;> rfl
  · exact fun _ _ _ _ _ _ => hu

theorem readPieces_control {n : Nat} (h : n < 0x20) (rest : Text) :
    readPieces (ofChars (['\\', 'u'] ++ hexPadded 4 n) ++ rest) =
      (readPieces rest).map fun r => (.unit n :: r.1, r.2) := by
  obtain ⟨hdigits, hvalue⟩ := hexPadded_control h
  rw [hdigits]
  simp only [ofChars, List.cons_append, List.nil_append, List.map_cons, List.map_nil]
  rw [readPieces, hvalue]
  cases readPieces rest <;> rfl

/-- A written code point is read as one piece of it. -/
theorem exists_readPieces (p : CodePoint) : ∃ piece, IsPieceOf p piece ∧ ∀ rest,
    readPieces (escapePoint p ++ rest) = (readPieces rest).map fun r => (piece :: r.1, r.2) := by
  cases p with
  | surrogate n =>
    refine ⟨_, .plain _, readPieces_plain ?_ (by simp) (by simp)⟩
    simp only [CodePoint.toNat, CodePoint.firstSurrogate]
    omega
  | char c =>
    unfold escapePoint
    rcases escapeChar_cases c with ⟨heq, hc, hquote, hslash⟩ | ⟨letter, heq, hu, hletter⟩ |
      ⟨heq, hc⟩
    · exact ⟨_, .plain _, fun rest => by
        simpa [heq, ofChars] using readPieces_plain (p := .char c) hc (by simpa) (by simpa) rest⟩
    · exact ⟨_, .plain _, fun rest => by
        simpa [heq, ofChars] using readPieces_letter hu hletter rest⟩
    · exact ⟨_, .control c hc, fun rest => by
        simpa only [heq] using readPieces_control hc rest⟩

/-! ## Strings -/

/-- The pieces of a text are read as the text. -/
theorem ofPieces_eq {t : Text} {pieces : List Piece} (h : List.Forall₂ IsPieceOf t pieces) :
    ofPieces pieces = t := by
  induction h with
  | nil => rfl
  | cons hp _ ih =>
    cases hp with
    | plain p => rw [ofPieces, ih]
    | control c hc =>
      have hnumber : CodePoint.ofNat c.toNat = .char c := CodePoint.ofNat_toNat (.char c)
      rw [ofPieces_control hc, ih, hnumber]

theorem exists_readPieces_written (t rest : Text) : ∃ pieces, List.Forall₂ IsPieceOf t pieces ∧
    readPieces (t.flatMap escapePoint ++ .char '"' :: rest) = some (pieces, rest) := by
  induction t with
  | nil => exact ⟨[], .nil, by simp [readPieces]⟩
  | cons p t ih =>
    obtain ⟨piece, hpiece, hread⟩ := exists_readPieces p
    obtain ⟨pieces, hpieces, hrest⟩ := ih
    refine ⟨piece :: pieces, .cons hpiece hpieces, ?_⟩
    rw [List.flatMap_cons, List.append_assoc, hread, hrest]
    rfl

/-- **What is written between the quotes of a string is read as the text.** -/
theorem readText_written (t rest : Text) :
    readText (t.flatMap escapePoint ++ .char '"' :: rest) = some (t, rest) := by
  obtain ⟨pieces, hpieces, hread⟩ := exists_readPieces_written t rest
  unfold readText
  rw [hread, Option.map_some]
  dsimp only
  rw [ofPieces_eq hpieces]

end Treewalk.Json
