import Treewalk.Text.CharacterClass

/-!
# Integers as text

Writing an integer in decimal, and reading one from free text: blanks around it are skipped, a sign
may stand in front, the digits may come from any script, and single underscores may stand between
digits. In another base than ten the digits may be introduced by `0b`, `0o` or `0x`.

Texts in base ten with more than `digitLimit` digits are refused, because their conversion takes
quadratic time.
-/

namespace Treewalk.Number

open Text

/-- The decimal digits of an integer, with a minus sign in front of a negative one. -/
def renderInt : Int → List Char
  | .ofNat n => Nat.toDigits 10 n
  | .negSucc n => '-' :: Nat.toDigits 10 (n + 1)

/-- The most digits that a numeral in base ten may have. -/
def digitLimit : Nat := 4300

/-- The least natural number with more digits than a numeral may have. -/
def leastLong : Nat := Nat.pow 10 digitLimit

/-- Whether an integer has no more digits than a numeral may have. -/
def hasFewDigits (n : Int) : Bool := n.natAbs < leastLong

/-- Why a text gives no integer. -/
inductive NumeralFault where
  | malformed
  | tooLong (digits : Nat)
  deriving DecidableEq

/-- The value of a character as a digit of a base up to sixteen. -/
def digitIn? (base : Nat) (c : Char) : Option Nat :=
  let value? := (decimalValue? c).or <|
    if 'a' ≤ c ∧ c ≤ 'f' then some (c.toNat - 'a'.toNat + 10)
    else if 'A' ≤ c ∧ c ≤ 'F' then some (c.toNat - 'A'.toNat + 10)
    else none
  value?.filter (· < base)

/-- The digit values of a text that holds digits with single underscores between them. -/
def digitValues? (base : Nat) : List Char → Option (List Nat)
  | [] => none
  | [c] => (digitIn? base c).map ([·])
  | c :: '_' :: d :: rest => do
    let v ← digitIn? base c
    let vs ← digitValues? base (d :: rest)
    return v :: vs
  | c :: rest => do
    let v ← digitIn? base c
    let vs ← digitValues? base rest
    return v :: vs

/-- The number that a list of digit values denotes. -/
def ofDigitValues (base : Nat) (vs : List Nat) : Nat := vs.foldl (fun n v => n * base + v) 0

/-- Splits a leading sign off; the first part says whether it was a minus. -/
def takeSign : List Char → Bool × List Char
  | '-' :: rest => (true, rest)
  | '+' :: rest => (false, rest)
  | cs => (false, cs)

/-- Drops the mark that introduces numerals of a base, with the underscore that may follow it. -/
def dropBaseMark (base : Nat) : List Char → List Char
  | '0' :: c :: rest =>
    let marks := match base with
      | 2 => ['b', 'B']
      | 8 => ['o', 'O']
      | 16 => ['x', 'X']
      | _ => []
    if c ∈ marks then (match rest with | '_' :: more => more | _ => rest) else '0' :: c :: rest
  | cs => cs

/-- Whether a character may stand among the digits of a base. -/
def isDigitPart (base : Nat) (c : Char) : Bool := c = '_' || (digitIn? base c).isSome

/-- Reads an integer in the given base. The digits are counted before it is known whether anything
but blanks follows them. -/
def readInt (base : Nat) (cs : List Char) : Except NumeralFault Int :=
  let (negative, body) := takeSign (cs.dropWhile isNumeralBlank)
  let body := dropBaseMark base body
  match digitValues? base (body.takeWhile (isDigitPart base)) with
  | none => .error .malformed
  | some vs =>
    if base = 10 ∧ digitLimit < vs.length then .error (.tooLong vs.length)
    else if (body.dropWhile (isDigitPart base)).all isNumeralBlank then
      let n := ofDigitValues base vs
      .ok (if negative then -(n : Int) else n)
    else .error .malformed

end Treewalk.Number
