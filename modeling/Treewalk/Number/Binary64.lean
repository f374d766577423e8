import Treewalk.Number.Integer

/-!
# Binary floating point numbers as text

A number of the 64-bit binary format is kept as its bit pattern, so that equality of the type tells
all of them apart. This module reads a decimal as the nearest such number, finds the shortest
decimal that reads back as a given one, and writes it.

Both directions are exact arithmetic on natural numbers. A finite number is `m · 2^e`; the reals
that are nearest to it form an interval whose ends belong to it exactly when `m` is even. A decimal
with `k` digits that lies in the interval exists only if one of the two neighbours of the number on
the grid of `k`-digit decimals does, so it is enough to test these two for `k = 1, 2, …, 17`.
-/

namespace Treewalk.Number

open Text

/-- A number of the 64-bit binary floating point format, as its bit pattern. -/
structure Binary64 where
  bits : UInt64
  deriving DecidableEq

namespace Binary64

/-! ## Parts of the format -/

/-- The weight of the sign bit, `2^63`. -/
def signWeight : Nat := 0x8000000000000000

/-- The weight of the last bit of the exponent field, `2^52`. -/
def exponentWeight : Nat := 0x10000000000000

/-- The sign bit. -/
def isNegative (x : Binary64) : Bool := signWeight ≤ x.bits.toNat

/-- The bit pattern without the sign. -/
def magnitude (x : Binary64) : Nat := x.bits.toNat % signWeight

/-- The pattern of positive infinity. -/
def infiniteMagnitude : Nat := 0x7FF * exponentWeight

/-- Whether the bits stand for no number. -/
def isNaN (x : Binary64) : Bool := infiniteMagnitude < x.magnitude

/-- Whether the number is one of the two infinities. -/
def isInfinite (x : Binary64) : Bool := x.magnitude = infiniteMagnitude

/-- Whether the number is zero, of either sign. -/
def isZero (x : Binary64) : Bool := x.magnitude = 0

/-- The number with a given sign and pattern of the magnitude. -/
def ofMagnitude (negative : Bool) (magnitude : Nat) : Binary64 :=
  ⟨UInt64.ofNat (if negative then signWeight + magnitude else magnitude)⟩

/-- The infinity of a sign. -/
def infinity (negative : Bool) : Binary64 := ofMagnitude negative infiniteMagnitude

/-- The standard bits that stand for no number. -/
def nan : Binary64 := ofMagnitude false (infiniteMagnitude + exponentWeight / 2)

/-- Bits that stand for no number either; those with different marks can be told apart. -/
def marked (mark : Nat) : Binary64 :=
  ofMagnitude false (infiniteMagnitude + exponentWeight / 2 + (mark + 1) % (exponentWeight / 2))

/-- The significand `m` and the exponent `e` of a finite number of magnitude `m · 2^e`. -/
def parts (x : Binary64) : Nat × Int :=
  let exponent : Nat := x.magnitude / exponentWeight
  let fraction : Nat := x.magnitude % exponentWeight
  if exponent = 0 then (fraction, -1074) else (exponentWeight + fraction, (exponent : Int) - 1075)

/-- The ratio `num / den` times `base^exponent`, as a ratio. -/
def scaleBy (base : Nat) (exponent : Int) (num den : Nat) : Nat × Nat :=
  if 0 ≤ exponent then (num * Nat.pow base exponent.toNat, den)
  else (num, den * Nat.pow base (-exponent).toNat)

/-- Whether the number equals an integer. -/
def equalsInt (x : Binary64) (n : Int) : Bool :=
  if infiniteMagnitude ≤ x.magnitude then false
  else
    let (m, e) := x.parts
    let (num, den) := scaleBy 2 e m 1
    (m = 0 || x.isNegative == decide (n < 0)) && num == n.natAbs * den

/-- Equality of numbers: nothing equals the undefined number, and the two zeros are equal. -/
def numEq (x y : Binary64) : Bool :=
  !x.isNaN && !y.isNaN && (x == y || (x.isZero && y.isZero))

/-! ## From a ratio to the nearest number -/

/-- `⌊log₂ (num / den)⌋` for positive numbers. -/
def ratioLog2 (num den : Nat) : Int :=
  let guess : Int := (num.log2 : Int) - den.log2
  let (n, d) := scaleBy 2 (-guess) num den
  if d ≤ n then guess else guess - 1

/-- The quotient rounded to the nearest natural number, a half to the even one. -/
def roundDiv (num den : Nat) : Nat :=
  let q := num / den
  let r := num % den
  if den < 2 * r || (den == 2 * r && q % 2 == 1) then q + 1 else q

/-- The pattern of the number nearest to `num / den`; too large ratios give infinity. -/
def nearestMagnitude (num den : Nat) : Nat :=
  if num = 0 then 0
  else
    let e := max (ratioLog2 num den - 52) (-1074)
    let (n, d) := scaleBy 2 (-e) num den
    min (roundDiv n d + (e + 1074).toNat * exponentWeight) infiniteMagnitude

/-- The number nearest to `± digits · 10^exponent`. -/
def ofDecimal (negative : Bool) (digits : Nat) (exponent : Int) : Binary64 :=
  let size : Int := (Nat.toDigits 10 digits).length
  ofMagnitude negative <|
    if digits = 0 || size + exponent < -330 then 0
    else if 400 < size + exponent then infiniteMagnitude
    else
      let (num, den) := scaleBy 10 exponent digits 1
      nearestMagnitude num den

/-- The number nearest to an integer. -/
def ofInt (n : Int) : Binary64 := ofDecimal (n < 0) n.natAbs 0

/-! ## From a number to the shortest decimal -/

/-- A positive decimal `digits · 10^exponent`. -/
structure Decimal where
  digits : Nat
  exponent : Int

/-- `⌊log₁₀ (num / den)⌋` for positive numbers. -/
def ratioLog10 (num den : Nat) : Int :=
  let guess := ratioLog2 num den * 30103 / 100000
  let reaches (p : Int) : Bool :=
    let (n, d) := scaleBy 10 (-p) num den
    d ≤ n
  if reaches (guess + 1) then guess + 1 else if reaches guess then guess else guess - 1

/-- The shortest decimal among those that read back as a finite number other than zero; of two such
decimals of one length the nearer, and at equal distance the one with an even last digit. -/
def shortest (x : Binary64) : Decimal :=
  let (m, e) := x.parts
  -- all in quarters of the last place: the number, and the ends of the interval that rounds to it
  let below := if m = exponentWeight ∧ -1074 < e then 4 * m - 1 else 4 * m - 2
  let above := 4 * m + 2
  let (num, den) := scaleBy 2 e (4 * m) 4
  let low := (scaleBy 2 e below 4).1
  let high := (scaleBy 2 e above 4).1
  let p := ratioLog10 num den
  let attempt (k : Nat) : Option Decimal :=
    let place : Int := p - k + 1
    -- a candidate `c` stands for `c · 10^place`; compare on the common denominator
    let (n, d) := scaleBy 10 (-place) num den
    let (lo, _) := scaleBy 10 (-place) low den
    let (hi, _) := scaleBy 10 (-place) high den
    let inside (c : Nat) : Bool :=
      if m % 2 = 0 then lo ≤ c * d && c * d ≤ hi else lo < c * d && c * d < hi
    let c := n / d
    let down := inside c
    let up := inside (c + 1)
    let distDown := n - c * d
    let distUp := (c + 1) * d - n
    if down && up then
      if distDown < distUp || (distDown == distUp && c % 2 == 0) then some ⟨c, place⟩
      else some ⟨c + 1, place⟩
    else if down then some ⟨c, place⟩
    else if up then some ⟨c + 1, place⟩
    else none
  ((List.range' 1 17).findSome? attempt).getD ⟨m, 0⟩

/-- Leaves out zeros at the end of the digits. -/
def trimZeros (ds : List Char) : List Char :=
  match (ds.reverse.dropWhile (· == '0')).reverse with
  | [] => ['0']
  | kept => kept

/-- The text of a number: the shortest decimal that reads back, positional if its first digit stands
between the fourth place after the point and the sixteenth before it, and with an exponent of at
least two digits otherwise. -/
def render (x : Binary64) : List Char :=
  if x.isNaN then ['n', 'a', 'n']
  else
    let sign := if x.isNegative then ['-'] else []
    if x.isInfinite then sign ++ ['i', 'n', 'f']
    else if x.isZero then sign ++ ['0', '.', '0']
    else
      let s := x.shortest
      let all := Nat.toDigits 10 s.digits
      let point : Int := all.length + s.exponent
      let ds := trimZeros all
      let n : Int := ds.length
      sign ++
        if -4 < point ∧ point ≤ 0 then
          ['0', '.'] ++ List.replicate (-point).toNat '0' ++ ds
        else if 0 < point ∧ point ≤ 16 then
          if n ≤ point then ds ++ List.replicate (point - n).toNat '0' ++ ['.', '0']
          else ds.take point.toNat ++ '.' :: ds.drop point.toNat
        else
          let e := point - 1
          let digits := Nat.toDigits 10 e.natAbs
          let mantissa := match ds with
            | d :: f :: more => d :: '.' :: f :: more
            | short => short
          mantissa ++ ['e', if e < 0 then '-' else '+'] ++
            (if digits.length < 2 then '0' :: digits else digits)

/-! ## Reading free text -/

/-- Leaves out the underscores that stand between two digits; any other underscore is a fault. -/
def dropUnderscores? : Bool → List Char → Option (List Char)
  | _, [] => some []
  | afterDigit, '_' :: rest =>
    match rest with
    | c :: _ => if afterDigit && (decimalValue? c).isSome then dropUnderscores? false rest else none
    | [] => none
  | _, c :: rest => (dropUnderscores? (decimalValue? c).isSome rest).map (c :: ·)

/-- The longest run of digits at the start, and what follows it. -/
def takeDigits : List Char → List Nat × List Char
  | [] => ([], [])
  | c :: rest =>
    match decimalValue? c with
    | some v => let (vs, more) := takeDigits rest; (v :: vs, more)
    | none => ([], c :: rest)

/-- The exponent part of a decimal, up to the end of the text. -/
def readExponent? : List Char → Option Int
  | [] => some 0
  | c :: rest =>
    if c = 'e' ∨ c = 'E' then
      let (negative, body) := takeSign rest
      match takeDigits body with
      | ([], _) => none
      | (vs, []) =>
        let n := ofDigitValues 10 vs
        some (if negative then -(n : Int) else n)
      | _ => none
    else none

/-- Reads a decimal without sign: digits, an optional point with digits, an optional exponent. -/
def readUnsigned? (negative : Bool) (cs : List Char) : Option Binary64 := do
  let (whole, rest) := takeDigits cs
  let (part, rest) := match rest with
    | '.' :: more => takeDigits more
    | _ => ([], rest)
  if whole.isEmpty && part.isEmpty then none
  else
    let e ← readExponent? rest
    some (ofDecimal negative (ofDigitValues 10 (whole ++ part)) (e - part.length))

/-- Reads a number from free text: a decimal, `inf`, `infinity` or `nan` in any case, with blanks
around it and a sign. -/
def read? (cs : List Char) : Option Binary64 := do
  let (negative, body) := takeSign (trimNumeral cs)
  let word := String.ofList (body.map Char.toLower)
  if word = "inf" ∨ word = "infinity" then some (infinity negative)
  else if word = "nan" then some nan
  else
    let plain ← dropUnderscores? false body
    readUnsigned? negative plain

/-! ## Arithmetic -/

/-- The number as a machine number. -/
def toFloat (x : Binary64) : Float := Float.ofBits x.bits

/-- The number of a machine number. -/
def ofFloat (f : Float) : Binary64 := ⟨f.toBits⟩

/-- The number with the other sign. -/
def negate (x : Binary64) : Binary64 := ofMagnitude (!x.isNegative) x.magnitude

end Binary64

end Treewalk.Number
