import Treewalk.Json.Token
import Treewalk.Json.Writer
import Treewalk.Proofs.Json.Strings
import Treewalk.Proofs.Number.Decimal

/-!
# Written scalars are single tokens

The written form of a scalar is read as one token, and what follows it is left (`next_renderInt`,
`next_writeText`). Only a number has no end of its own: it has to be followed by something that
continues no number (`EndsNumber`).
-/

namespace Treewalk.Json

open Number Text

/-! ## The end of a number -/

/-- Whether a text does not go on with a number: it starts with no digit, point or exponent. -/
def EndsNumber (rest : Text) : Prop :=
  ∀ c after, rest = .char c :: after → isDigit c = false ∧ c ≠ '.' ∧ c ≠ 'e' ∧ c ≠ 'E'

theorem endsNumber_nil : EndsNumber [] := by
  intro c after h
  cases h

theorem endsNumber_cons {c : Char} (h : isDigit c = false ∧ c ≠ '.' ∧ c ≠ 'e' ∧ c ≠ 'E')
    (rest : Text) : EndsNumber (.char c :: rest) := by
  intro d after heq
  cases heq
  exact h

variable {ds : List Char} {rest : Text}

theorem spanDigits_append (hds : ∀ c ∈ ds, c.isDigit = true) (hrest : EndsNumber rest) :
    spanDigits (ofChars ds ++ rest) = (ds, rest) := by
  induction ds with
  | nil =>
    unfold ofChars
    rw [List.map_nil, List.nil_append]
    unfold spanDigits
    split
    · next c after =>
      rw [if_neg (by rw [(hrest c after rfl).1]; exact Bool.false_ne_true)]
    · rfl
  | cons d ds ih =>
    obtain ⟨hd, hds⟩ := List.forall_mem_cons.mp hds
    have hdigit : isDigit d = true := hd
    have hspan := ih hds
    unfold ofChars at hspan ⊢
    rw [List.map_cons, List.cons_append, spanDigits, if_pos hdigit, hspan]

theorem spanFraction_of_ends (hrest : EndsNumber rest) : spanFraction rest = ([], rest) := by
  unfold spanFraction
  split
  · next after => exact absurd rfl (hrest '.' after rfl).2.1
  · rfl

theorem spanExponent_of_ends (hrest : EndsNumber rest) : spanExponent rest = (none, rest) := by
  unfold spanExponent
  split
  · rfl
  · next e after =>
    rw [if_neg]
    rintro (rfl | rfl)
    · exact absurd rfl (hrest 'e' after rfl).2.2.1
    · exact absurd rfl (hrest 'E' after rfl).2.2.2

/-! ## Numbers -/

theorem spanWhole_numeral (h : IsNumeral ds) (hrest : EndsNumber rest) :
    spanWhole (ofChars ds ++ rest) = some (ds, rest) := by
  have hspan := spanDigits_append h.digits hrest
  obtain ⟨d, tail, rfl, -, -⟩ := h.exists_cons
  unfold spanWhole
  split
  · next after heq =>
    -- a numeral that starts with a zero is nothing but the zero
    cases heq
    obtain rfl : tail = [] := (List.cons.inj (h.no_zero rfl)).2
    rfl
  · rw [hspan]

theorem readNumber_numeral (negative : Bool) (h : IsNumeral ds) (hfew : ds.length ≤ digitLimit)
    (hrest : EndsNumber rest) : readNumber negative (ofChars ds ++ rest) =
      .ok (.int (if negative then -(Nat.ofDigitChars 10 ds 0 : Int) else Nat.ofDigitChars 10 ds 0),
        rest) := by
  unfold readNumber
  rw [spanWhole_numeral h hrest]
  dsimp only
  rw [spanFraction_of_ends hrest]
  dsimp only
  rw [spanExponent_of_ends hrest]
  dsimp only
  rw [if_pos (by decide), if_neg (Nat.not_lt.mpr hfew)]

/-- A digit starts a number and nothing else. -/
theorem next_digit {d : Char} (hd : d.isDigit = true) (rest : Text) :
    Token.next (.char d :: rest) =
      (readNumber false (.char d :: rest)).map fun r => (Token.scalar r.1, r.2) := by
  have hne : ∀ c, c.isDigit = false → d ≠ c := by
    rintro c hc rfl
    rw [hd] at hc
    cases hc
  have hword : Token.wordAfter? d = none := by
    unfold Token.wordAfter?
    split
    · exact absurd rfl (hne 'n' (by decide))
    · exact absurd rfl (hne 't' (by decide))
    · exact absurd rfl (hne 'f' (by decide))
    · exact absurd rfl (hne 'N' (by decide))
    · exact absurd rfl (hne 'I' (by decide))
    · rfl
  rw [Token.next, hword]
  all_goals exact hne _ (by decide)

/-- **A written integer is one token, unless it has too many digits.** -/
theorem next_renderInt {n : Int} (hn : hasFewDigits n = true) (hrest : EndsNumber rest) :
    Token.next (ofChars (renderInt n) ++ rest) = .ok (.scalar (.int n), rest) := by
  have hnum := isNumeral_toDigits n.natAbs
  have hlength := length_toDigits_le hn
  have hvalue : Nat.ofDigitChars 10 (Nat.toDigits 10 n.natAbs) 0 = n.natAbs :=
    Nat.ofDigitChars_ten_toDigits
  rw [renderInt_eq]
  generalize Nat.toDigits 10 n.natAbs = ds at hnum hlength hvalue
  have hread := fun negative => readNumber_numeral negative hnum hlength hrest
  rw [hvalue] at hread
  obtain ⟨d, tail, rfl, hd, -⟩ := hnum.exists_cons
  unfold signText
  by_cases hneg : n < 0
  · -- A sign may also stand before an infinity, but a digit follows here.
    have hword : dropWord? ['I', 'n', 'f', 'i', 'n', 'i', 't', 'y']
        (ofChars (d :: tail) ++ rest) = none := by
      have hne : CodePoint.char d ≠ .char 'I' := by
        rintro ⟨⟩
        exact absurd hd (by decide)
      exact if_neg hne
    have heq : -(n.natAbs : Int) = n := by omega
    rw [if_pos hneg]
    show Token.next (.char '-' :: (ofChars (d :: tail) ++ rest)) = _
    rw [Token.next, hword, hread true, if_pos rfl, heq]
    rfl
  · have heq : (n.natAbs : Int) = n := by omega
    rw [if_neg hneg, List.nil_append]
    show Token.next (.char d :: (ofChars tail ++ rest)) = _
    rw [next_digit hd]
    show (readNumber false (ofChars (d :: tail) ++ rest)).map _ = _
    rw [hread false, if_neg Bool.false_ne_true, heq]
    rfl

/-! ## Strings -/

/-- **A written string is one token.** -/
theorem next_writeText (t rest : Text) :
    Token.next (writeText t ++ rest) = .ok (.text t, rest) := by
  unfold writeText
  rw [List.append_assoc, List.cons_append, List.singleton_append, Token.next, readText_written]

/-! ## Spaces -/

/-- A token starts with no space. -/
theorem isSpace_of_next {p : CodePoint} {token : Token} {after : Text}
    (h : Token.next (p :: rest) = .ok (token, after)) : isSpace p = false := by
  rw [Bool.eq_false_iff]
  intro hspace
  cases p with
  | surrogate n => exact Bool.false_ne_true hspace
  | char c =>
    have hc : ((c = ' ' ∨ c = '\t') ∨ c = '\n') ∨ c = '\r' := by
      simpa [isSpace, CodePoint.isCharWith] using hspace
    rcases hc with ((rfl | rfl) | rfl) | rfl <;> cases h

end Treewalk.Json
