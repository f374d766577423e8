/-!
# Base 64

Bytes written with sixty-four letters, four for three bytes. Writing pads the last group with equals
signs and can cut the text into lines. Reading is lenient: it skips what is no letter and stops at
the padding that completes a group.
-/

namespace Treewalk.Text

/-! ## Letters -/

/-- The letter for a value below 64. -/
def base64Letter (v : Nat) : Char :=
  if v < 26 then Char.ofNat ('A'.toNat + v)
  else if v < 52 then Char.ofNat ('a'.toNat + v - 26)
  else if v < 62 then Char.ofNat ('0'.toNat + v - 52)
  else if v = 62 then '+' else '/'

/-- The value of a letter. -/
def base64Value? (c : Char) : Option Nat :=
  if 'A' ≤ c ∧ c ≤ 'Z' then some (c.toNat - 'A'.toNat)
  else if 'a' ≤ c ∧ c ≤ 'z' then some (c.toNat - 'a'.toNat + 26)
  else if '0' ≤ c ∧ c ≤ '9' then some (c.toNat - '0'.toNat + 52)
  else if c = '+' then some 62
  else if c = '/' then some 63
  else none

/-- The value of a letter is read back. -/
theorem base64Value?_base64Letter {v : Nat} (h : v < 64) :
    base64Value? (base64Letter v) = some v := by
  have all : ∀ w ∈ List.range 64, base64Value? (base64Letter w) = some w := by decide
  exact all v (List.mem_range.mpr h)

/-! ## Writing -/

/-- The letters of some bytes. -/
def encodeBase64 : List UInt8 → List Char
  | [] => []
  | [a] =>
    let n := a.toNat * 16
    [base64Letter (n / 64), base64Letter (n % 64), '=', '=']
  | [a, b] =>
    let n := (a.toNat * 256 + b.toNat) * 4
    [base64Letter (n / 4096), base64Letter (n / 64 % 64), base64Letter (n % 64), '=']
  | a :: b :: c :: rest =>
    let n := (a.toNat * 256 + b.toNat) * 256 + c.toNat
    base64Letter (n / 262144) :: base64Letter (n / 4096 % 64) :: base64Letter (n / 64 % 64) ::
      base64Letter (n % 64) :: encodeBase64 rest

/-- A text cut into lines of at most `width + 1` characters, each ended by a line feed. -/
def cutLines (width : Nat) (cs : List Char) : List Char :=
  match cs with
  | [] => []
  | c :: rest => c :: rest.take width ++ '\n' :: cutLines width (rest.drop width)
termination_by cs.length
decreasing_by
  simp only [List.length_cons, List.length_drop]
  omega

/-! ## Reading -/

/-- Reads letters: `place` is their number in the current group, `carry` the bits that are left
over, and `pads` the number of equals signs since the last letter. -/
def readBase64 (place carry pads : Nat) : List Char → Option (List UInt8)
  | [] => if place = 0 then some [] else none
  | c :: rest =>
    if c = '=' then
      if 2 ≤ place then
        if 4 ≤ place + pads + 1 then some [] else readBase64 place carry (pads + 1) rest
      else readBase64 place carry pads rest
    else
      match base64Value? c with
      | none => readBase64 place carry pads rest
      | some v =>
        match place with
        | 0 => readBase64 1 v 0 rest
        | 1 => (readBase64 2 (v % 16) 0 rest).map (UInt8.ofNat (carry * 4 + v / 16) :: ·)
        | 2 => (readBase64 3 (v % 4) 0 rest).map (UInt8.ofNat (carry * 16 + v / 4) :: ·)
        | _ => (readBase64 0 0 0 rest).map (UInt8.ofNat (carry * 64 + v) :: ·)

/-- The bytes of a text, unless it ends within a group. -/
def decodeBase64 (cs : List Char) : Option (List UInt8) := readBase64 0 0 0 cs

end Treewalk.Text
