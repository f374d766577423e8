import Treewalk.Text.CodePoint
import Treewalk.Text.Printable

/-!
# Quoted texts

The written form of a text or of a byte string between quotes, as it is shown inside messages. The
quote is the single one, unless the text has single quotes and no double ones. Inside, the quote and
the backslash get a backslash, tab, line feed and carriage return are written with a letter, and
surrogates and all other unprintable characters are written by their numbers in two, four or eight
lower-case hexadecimal digits, whichever fits first.
-/

namespace Treewalk.Text

/-- The digits of `n` in base 16, lower case, padded on the left with zeros to `width` digits. -/
def hexPadded (width n : Nat) : List Char :=
  let digits := Nat.toDigits 16 n
  List.replicate (width - digits.length) '0' ++ digits

/-- The quote for a text: the double quote only where it saves escaping single ones. -/
def quoteFor (t : Text) : Char :=
  if t.contains (.char '\'') && !t.contains (.char '"') then '"' else '\''

/-- The written form of a code point by its number. -/
def numericEscape (n : Nat) : List Char :=
  if n < 0x100 then ['\\', 'x'] ++ hexPadded 2 n
  else if n < 0x10000 then ['\\', 'u'] ++ hexPadded 4 n
  else ['\\', 'U'] ++ hexPadded 8 n

/-- One character inside quotes. -/
def quoteChar (quote c : Char) : List Char :=
  if c = quote ∨ c = '\\' then ['\\', c]
  else if c = '\t' then ['\\', 't']
  else if c = '\n' then ['\\', 'n']
  else if c = '\r' then ['\\', 'r']
  else if isPrintable c then [c]
  else numericEscape c.toNat

/-- One code point inside quotes. -/
def quotePoint (quote : Char) : CodePoint → List Char
  | .char c => quoteChar quote c
  | point => numericEscape point.toNat

/-- A text between quotes. -/
def quoted (t : Text) : List Char :=
  let quote := quoteFor t
  quote :: t.flatMap (quotePoint quote) ++ [quote]

/-- A byte string between quotes, after the letter `b`; bytes outside printable ASCII are written by
their number. -/
def quotedBytes (bytes : List UInt8) : List Char :=
  let chars := bytes.map fun b => Char.ofNat b.toNat
  let quote := quoteFor (ofChars chars)
  let one (c : Char) : List Char :=
    if 0x7F ≤ c.toNat then numericEscape c.toNat else quoteChar quote c
  'b' :: quote :: chars.flatMap one ++ [quote]

end Treewalk.Text
