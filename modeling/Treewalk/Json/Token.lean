import Treewalk.Json.Text
import Treewalk.Document.Basic

/-!
# JSON tokens

A token is a bracket, a separator, a string or another scalar. `Token.next` reads the first token of
a text; what follows it is shorter (`Token.length_next`), which is why reading a document ends.

Beside the scalars of the format the words `NaN`, `Infinity` and `-Infinity` are read.
-/

namespace Treewalk.Json

open Number

/-- Why a text is no JSON document. -/
inductive JsonFault where
  | malformed
  /-- The text nests collections more deeply than the reader goes. -/
  | tooDeep
  /-- The text holds an integer with too many digits. -/
  | longInteger (digits : Nat)
  deriving DecidableEq

/-- A token. -/
inductive Token where
  | openList
  | closeList
  | openMap
  | closeMap
  | comma
  | colon
  | text (t : Text)
  /-- A scalar other than a string. -/
  | scalar (d : Document)

/-- Whether a code point may stand between tokens. -/
def isSpace (point : CodePoint) : Bool :=
  point.isCharWith fun c => c = ' ' || c = '\t' || c = '\n' || c = '\r'

/-- Whether a character is a decimal digit of ASCII. -/
def isDigit (c : Char) : Bool := '0' ≤ c && c ≤ '9'

/-- The digits at the start of a text, and what follows them. -/
def spanDigits : Text → List Char × Text
  | .char c :: rest =>
    if isDigit c then
      let (digits, after) := spanDigits rest
      (c :: digits, after)
    else ([], .char c :: rest)
  | t => ([], t)

/-- What follows the digits is no longer than the text. -/
theorem length_spanDigits (t : Text) : (spanDigits t).2.length ≤ t.length := by
  fun_induction spanDigits t <;> grind

/-- The fraction of a number: a point with at least one digit after it. -/
def spanFraction : Text → List Char × Text
  | .char '.' :: rest =>
    match spanDigits rest with
    | ([], _) => ([], .char '.' :: rest)
    | fraction => fraction
  | t => ([], t)

theorem length_spanFraction (t : Text) : (spanFraction t).2.length ≤ t.length := by
  unfold spanFraction
  split
  · next rest =>
    have := length_spanDigits rest
    split
    · exact Nat.le_refl _
    · exact Nat.le_succ_of_le this
  · exact Nat.le_refl _

/-- The exponent of a number: the letter, an optional sign, and at least one digit. -/
def spanExponent (t : Text) : Option Int × Text :=
  match t with
  | [] => (none, [])
  | e :: rest =>
    if e = .char 'e' ∨ e = .char 'E' then
      let (negative, body) := Text.takeSign rest
      match spanDigits body with
      | ([], _) => (none, t)
      | (ds, after) =>
        let n := Nat.ofDigitChars 10 ds 0
        (some (if negative then -(n : Int) else n), after)
    else (none, t)

theorem length_takeSign (t : Text) : (Text.takeSign t).2.length ≤ t.length := by
  unfold Text.takeSign
  split <;> simp

theorem length_spanExponent (t : Text) : (spanExponent t).2.length ≤ t.length := by
  unfold spanExponent
  split
  · simp
  · next e rest =>
    have h1 := length_takeSign rest
    have h2 := length_spanDigits (Text.takeSign rest).2
    split
    · dsimp only
      split
      · simp
      · next h => rw [h] at h2; simp at h2 ⊢; omega
    · simp

/-- The whole part of a number: a zero, or digits that start with none. -/
def spanWhole : Text → Option (List Char × Text)
  | .char '0' :: rest => some (['0'], rest)
  | t =>
    match spanDigits t with
    | ([], _) => none
    | whole => some whole

/-- Reads a number without its sign. -/
def readNumber (negative : Bool) (t : Text) : Except JsonFault (Document × Text) :=
  match spanWhole t with
  | none => .error .malformed
  | some (whole, rest) =>
    let (fraction, rest) := spanFraction rest
    let (exponent?, rest) := spanExponent rest
    if fraction.isEmpty && exponent?.isNone then
      if digitLimit < whole.length then .error (.longInteger whole.length)
      else
        let n := Nat.ofDigitChars 10 whole 0
        .ok (.int (if negative then -(n : Int) else n), rest)
    else
      let digits := Nat.ofDigitChars 10 (whole ++ fraction) 0
      .ok (.real (Binary64.ofDecimal negative digits (exponent?.getD 0 - fraction.length)), rest)

/-- Digits that are taken make what follows shorter. -/
theorem length_spanDigits_cons {t after : Text} {d : Char} {ds : List Char}
    (h : spanDigits t = (d :: ds, after)) : after.length < t.length := by
  cases t with
  | nil => simp [spanDigits] at h
  | cons point rest =>
    have := length_spanDigits rest
    cases point <;> grind [spanDigits]

theorem length_spanWhole {t rest : Text} {whole : List Char}
    (h : spanWhole t = some (whole, rest)) : rest.length < t.length := by
  unfold spanWhole at h
  split at h
  · simp at h; simp [← h.2]
  · split at h
    · simp at h
    · next hne =>
      have h := Option.some.inj h
      cases whole with
      | nil => exact absurd h (hne rest)
      | cons d ds => exact length_spanDigits_cons h

theorem length_readNumber {negative : Bool} {t rest : Text} {d : Document}
    (h : readNumber negative t = .ok (d, rest)) : rest.length < t.length := by
  unfold readNumber at h
  split at h
  · simp at h
  · next whole after hw =>
    have hlt := length_spanWhole hw
    have h1 := length_spanFraction after
    have h2 := length_spanExponent (spanFraction after).2
    dsimp only at h
    split at h
    · split at h
      · simp at h
      · simp at h; rw [← h.2]; omega
    · simp at h; rw [← h.2]; omega

/-- Drops a word from the start of a text. -/
def dropWord? : List Char → Text → Option Text
  | [], t => some t
  | _ :: _, [] => none
  | w :: ws, point :: rest => if point = .char w then dropWord? ws rest else none

theorem length_dropWord? {word : List Char} {t rest : Text} (h : dropWord? word t = some rest) :
    rest.length ≤ t.length := by
  induction word generalizing t with
  | nil => simp [dropWord?] at h; simp [h]
  | cons w ws ih =>
    cases t with
    | nil => simp [dropWord?] at h
    | cons point t =>
      simp only [dropWord?] at h
      split at h
      · have := ih h; simp; omega
      · simp at h

namespace Token

/-- The words that stand for a scalar, each without its first letter. -/
def wordAfter? : Char → Option (List Char × Document)
  | 'n' => some (['u', 'l', 'l'], .null)
  | 't' => some (['r', 'u', 'e'], .bool true)
  | 'f' => some (['a', 'l', 's', 'e'], .bool false)
  | 'N' => some (['a', 'N'], .real .nan)
  | 'I' => some (['n', 'f', 'i', 'n', 'i', 't', 'y'], .real (.infinity false))
  | _ => none

/-- Reads the first token of a text that starts with no space. -/
def next : Text → Except JsonFault (Token × Text)
  | .char '[' :: rest => .ok (openList, rest)
  | .char ']' :: rest => .ok (closeList, rest)
  | .char '\x7b' :: rest => .ok (openMap, rest)
  | .char '\x7d' :: rest => .ok (closeMap, rest)
  | .char ',' :: rest => .ok (comma, rest)
  | .char ':' :: rest => .ok (colon, rest)
  | .char '"' :: rest =>
    match readText rest with
    | none => .error .malformed
    | some (t, rest) => .ok (text t, rest)
  | .char '-' :: rest =>
    match dropWord? ['I', 'n', 'f', 'i', 'n', 'i', 't', 'y'] rest with
    | some rest => .ok (scalar (.real (.infinity true)), rest)
    | none => (readNumber true rest).map fun (d, rest) => (scalar d, rest)
  | .char c :: rest =>
    match wordAfter? c with
    | some (word, d) =>
      match dropWord? word rest with
      | some rest => .ok (scalar d, rest)
      | none => .error .malformed
    | none => (readNumber false (.char c :: rest)).map fun (d, rest) => (scalar d, rest)
  | _ => .error .malformed

/-- What follows a token is shorter than what it was read from. -/
theorem length_next {t rest : Text} {token : Token} (h : next t = .ok (token, rest)) :
    rest.length < t.length := by
  unfold next at h
  split at h
  case h_7 =>
    split at h
    · simp at h
    · next hr => have := length_readText hr; simp at h; simp [← h.2]; omega
  case h_8 =>
    split at h
    · next hd => have := length_dropWord? hd; simp at h; simp [← h.2]; omega
    · next r _ _ =>
      cases hn : readNumber true r with
      | error f => simp [hn, Except.map] at h
      | ok p => have := length_readNumber hn; simp [hn, Except.map] at h; simp [← h.2]; omega
  case h_9 =>
    split at h
    · split at h
      · next hd => have := length_dropWord? hd; simp at h; simp [← h.2]; omega
      · simp at h
    · next c r _ _ _ _ _ _ _ _ _ _ =>
      cases hn : readNumber false (.char c :: r) with
      | error f => simp [hn, Except.map] at h
      | ok p => have := length_readNumber hn; simp [hn, Except.map] at h; simp [← h.2] at *; omega
  case h_10 => simp at h
  all_goals (simp at h; simp [← h.2])

end Token

end Treewalk.Json
