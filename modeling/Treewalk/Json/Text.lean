import Treewalk.Text.Quoted

/-!
# JSON strings

Writing a text as the inside of a JSON string and reading it back up to the closing quote. Written
are only the escapes that the format demands: the quote, the backslash and the control characters.

Reading takes all escapes of the format. Two `\u` escapes that form a surrogate pair stand for one
character; a surrogate that stands alone stays one.
-/

namespace Treewalk.Json

open Text

/-- One character inside a JSON string. -/
def escapeChar (c : Char) : List Char :=
  if c = '"' then ['\\', '"']
  else if c = '\\' then ['\\', '\\']
  else if c = '\n' then ['\\', 'n']
  else if c = '\r' then ['\\', 'r']
  else if c = '\t' then ['\\', 't']
  else if c.toNat = 8 then ['\\', 'b']
  else if c.toNat = 12 then ['\\', 'f']
  else if c.toNat < 0x20 then ['\\', 'u'] ++ hexPadded 4 c.toNat
  else [c]

/-- One code point inside a JSON string. -/
def escapePoint : CodePoint → Text
  | .char c => ofChars (escapeChar c)
  | point => [point]

/-- A text as a JSON string. -/
def writeText (t : Text) : Text := .char '"' :: t.flatMap escapePoint ++ [.char '"']

/-- The character that a one-letter escape stands for. -/
def letterEscape? (c : Char) : Option Char :=
  match c with
  | '"' => some '"'
  | '\\' => some '\\'
  | '/' => some '/'
  | 'b' => some '\x08'
  | 'f' => some '\x0c'
  | 'n' => some '\n'
  | 'r' => some '\r'
  | 't' => some '\t'
  | _ => none

/-- The value of a hexadecimal digit. -/
def hexValue? (c : Char) : Option Nat :=
  if '0' ≤ c ∧ c ≤ '9' then some (c.toNat - '0'.toNat)
  else if 'a' ≤ c ∧ c ≤ 'f' then some (c.toNat - 'a'.toNat + 10)
  else if 'A' ≤ c ∧ c ≤ 'F' then some (c.toNat - 'A'.toNat + 10)
  else none

/-- The unit that four hexadecimal digits denote. -/
def unit? (a b c d : Char) : Option Nat := do
  let a ← hexValue? a
  let b ← hexValue? b
  let c ← hexValue? c
  let d ← hexValue? d
  return ((a * 16 + b) * 16 + c) * 16 + d

/-- Whether a code unit is the first half of a pair. -/
def isHighSurrogate (n : Nat) : Bool := 0xD800 ≤ n && n < 0xDC00

/-- Whether a code unit is the second half of a pair. -/
def isLowSurrogate (n : Nat) : Bool := 0xDC00 ≤ n && n < 0xE000

/-- The character of a surrogate pair. -/
def pairChar (high low : Nat) : Char :=
  Char.ofNat (0x10000 + (high - 0xD800) * 0x400 + (low - 0xDC00))

/-- A piece of the inside of a JSON string. -/
inductive Piece where
  /-- A code point, standing for itself or given by a letter. -/
  | plain (point : CodePoint)
  /-- A code unit given by its number. -/
  | unit (n : Nat)

/-- The text of pieces; two units may form a pair. -/
def ofPieces : List Piece → Text
  | [] => []
  | .plain point :: rest => point :: ofPieces rest
  | .unit high :: .unit low :: rest =>
    if isHighSurrogate high && isLowSurrogate low then .char (pairChar high low) :: ofPieces rest
    else .ofNat high :: ofPieces (.unit low :: rest)
  | .unit n :: rest => .ofNat n :: ofPieces rest

/-- Reads the inside of a JSON string and the closing quote: the pieces of the string, and what
follows the quote. Control characters may not stand in a string. -/
def readPieces : Text → Option (List Piece × Text)
  | [] => none
  | .char '"' :: rest => some ([], rest)
  | .char '\\' :: .char 'u' :: .char a :: .char b :: .char c :: .char d :: rest => do
    let n ← unit? a b c d
    let (pieces, after) ← readPieces rest
    return (.unit n :: pieces, after)
  | .char '\\' :: .char c :: rest => do
    let e ← letterEscape? c
    let (pieces, after) ← readPieces rest
    return (.plain e :: pieces, after)
  | point :: rest =>
    if point.toNat < 0x20 ∨ point = .char '\\' then none
    else do
      let (pieces, after) ← readPieces rest
      return (.plain point :: pieces, after)

/-- Reads the inside of a JSON string and the closing quote: the text, and what follows it. -/
def readText (t : Text) : Option (Text × Text) :=
  (readPieces t).map fun (pieces, after) => (ofPieces pieces, after)

/-- What follows a string is shorter than what it was read from. -/
theorem length_readPieces {t after : Text} {pieces : List Piece}
    (h : readPieces t = some (pieces, after)) : after.length < t.length := by
  fun_induction readPieces t generalizing pieces after <;>
    grind [Option.bind_eq_some_iff, Option.bind_eq_bind]

theorem length_readText {t text after : Text} (h : readText t = some (text, after)) :
    after.length < t.length := by
  obtain ⟨⟨pieces, rest⟩, hp, he⟩ := Option.map_eq_some_iff.1 h
  cases he
  exact length_readPieces hp

end Treewalk.Json
