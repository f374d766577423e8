import Treewalk.Document.Calendar

/-!
# Places in a YAML text

The classes of characters that the format tells apart, and the place up to which a text has been
read: what is left, how many characters that is, and the index, line and column of the place. Loops
over a text go on only while the number of characters that are left gets smaller, which is why they
end.
-/

namespace Treewalk.Yaml

/-! ## Faults -/

/-- Why a text is no YAML document, or describes no data. -/
inductive YamlFault where
  /-- The text breaks a rule of the format. -/
  | malformed
  /-- The text nests collections more deeply than the reader goes. -/
  | tooDeep
  /-- An escape gives a number that is no code point. -/
  | noSuchCharacter
  /-- An escape gives a number of more than 31 bits. -/
  | characterOverflow
  /-- A text tagged as integer is none in the given base. -/
  | notAnInteger (base : Nat) (given : Text)
  | longInteger (digits : Nat)
  /-- A text tagged as floating point number is none. -/
  | notAReal (given : Text)
  /-- A number in base 60 has so many parts that the weight of the first is no floating point
  number.
  -/
  | longReal
  /-- A text tagged as a number has no characters left after its sign. -/
  | emptyNumber
  /-- A text tagged as truth value is none; the text is in small letters. -/
  | unknownSwitch (given : Text)
  /-- A text tagged as timestamp is none. -/
  | notATimestamp
  /-- A mapping that stands for a text is tagged as timestamp. -/
  | timestampOfMapping
  | calendar (fault : CalendarFault)

/-! ## Characters -/

/-- Whether a character ends a line. -/
def isBreak (c : Char) : Bool :=
  c = '\n' || c = '\r' || c = '\x85' || c = '\u2028' || c = '\u2029'

/-- Whether a place ends a line: a line break or the end of the text. -/
def endsLine : Option Char → Bool
  | none => true
  | some c => isBreak c

/-- Whether a place ends a word: a space, a line break or the end of the text. -/
def endsWord : Option Char → Bool
  | none => true
  | some c => c = ' ' || isBreak c

/-- Whether a place ends an indicator: as for words, or a tab. -/
def endsIndicator : Option Char → Bool
  | none => true
  | some c => c = ' ' || c = '\t' || isBreak c

/-- Whether a character may stand in a text at all. -/
def isAllowed (c : Char) : Bool :=
  let n := c.toNat
  n == 0x09 || n == 0x0A || n == 0x0D || (0x20 ≤ n && n ≤ 0x7E) || n == 0x85 ||
  (0xA0 ≤ n && n ≤ 0xD7FF) || (0xE000 ≤ n && n ≤ 0xFFFD) || 0x10000 ≤ n

/-- Whether a character may stand in the name of an anchor or a tag handle. -/
def isNameChar (c : Char) : Bool := c.isAlphanum || c = '-' || c = '_'

/-- The mark that may stand at the start of a text. -/
def byteOrderMark : Char := '\uFEFF'

/-! ## Cursors -/

/-- A place in a text. -/
structure Cursor where
  rest : List Char
  /-- The number of characters in `rest`. -/
  left : Nat
  index : Nat
  line : Nat
  column : Nat

namespace Cursor

/-- The start of a text. -/
def start (cs : List Char) : Cursor := ⟨cs, cs.length, 0, 0, 0⟩

/-- The next character. -/
def peek (c : Cursor) : Option Char := c.rest.head?

/-- The character that is `n` characters further on. -/
def peekAt (c : Cursor) (n : Nat) : Option Char := c.rest[n]?

/-- Whether the next character has a property. -/
def nextIs (c : Cursor) (p : Char → Bool) : Bool := c.peek.any p

/-- The place after the next character. A byte order mark takes no column. -/
def advance (c : Cursor) : Cursor :=
  match c.rest with
  | [] => c
  | x :: rest =>
    if x = '\n' || x = '\x85' || x = '\u2028' || x = '\u2029' ||
        (x = '\r' && rest.head? != some '\n') then
      ⟨rest, c.left - 1, c.index + 1, c.line + 1, 0⟩
    else
      ⟨rest, c.left - 1, c.index + 1, c.line, if x = byteOrderMark then c.column else c.column + 1⟩

/-- The place after the next `n` characters. -/
def advanceBy (c : Cursor) : Nat → Cursor
  | 0 => c
  | n + 1 => c.advance.advanceBy n

/-- The longest run of characters with a property, and the place after it. -/
def span (p : Char → Bool) (c : Cursor) : List Char × Cursor :=
  let run := c.rest.takeWhile p
  (run, c.advanceBy run.length)

/-- The place after the longest run of characters with a property. -/
def skip (p : Char → Bool) (c : Cursor) : Cursor := (c.span p).2

/-- The place after the spaces. -/
def skipSpaces (c : Cursor) : Cursor := c.skip (· == ' ')

/-- The place at the end of the line, if a comment starts here. -/
def skipComment (c : Cursor) : Cursor :=
  if c.peek = some '#' then c.skip (!isBreak ·) else c

/-- Reads a line break: the text that it stands for, and the place after it. All breaks but the line
and paragraph separators stand for a line feed. -/
def lineBreak? (c : Cursor) : Option (List Char × Cursor) :=
  match c.rest with
  | '\r' :: '\n' :: _ => some (['\n'], c.advanceBy 2)
  | x :: _ =>
    if x = '\n' || x = '\r' || x = '\x85' then some (['\n'], c.advance)
    else if x = '\u2028' || x = '\u2029' then some ([x], c.advance)
    else none
  | [] => none

/-- Whether a line that marks the start or the end of a document begins here. -/
def atDocumentMark (c : Cursor) : Bool :=
  match c.rest with
  | '-' :: '-' :: '-' :: rest => endsIndicator rest.head?
  | '.' :: '.' :: '.' :: rest => endsIndicator rest.head?
  | _ => false

end Cursor

end Treewalk.Yaml
