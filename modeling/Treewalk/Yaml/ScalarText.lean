import Treewalk.Text.Quoted
import Treewalk.Yaml.Outline
import Treewalk.Yaml.Pen

/-!
# The written form of scalars

A scalar is written plain where its text is not taken for anything else, else between single quotes,
and between double quotes where it holds characters that only an escape can give, or blanks next to
line feeds. Bytes are written as a block of lines of their own outside brackets.

Long texts are folded: at a single space past the last column the line ends instead. A text between
double quotes ends its line with a backslash, and another one protects a space at the start of the
next line. The key of a mapping is never folded.
-/

namespace Treewalk.Yaml

open Text

/-- The last column that is filled before a text is folded. -/
def lastColumn : Nat := 80

/-! ## Traits of a text -/

/-- The characters that end a word in an indicator: blanks, line breaks and the null character. -/
def separates (c : Char) : Bool := c = '\x00' || c = ' ' || c = '\t' || isBreak c

/-- Whether a text ends or is separated from what follows. -/
def endsHere (rest : List Char) : Bool := rest.head?.all separates

/-- The indicators that no plain scalar starts with. -/
def openingIndicators : List Char :=
  ['#', ',', '[', ']', '\x7b', '\x7d', '&', '*', '!', '|', '>', '\'', '"', '%', '@', '\x60']

/-- Whether a text starts like a document mark. -/
def startsWithMark (cs : List Char) : Bool :=
  ['-', '-', '-'].isPrefixOf cs || ['.', '.', '.'].isPrefixOf cs

/-- Whether the first character of a text is an indicator: inside brackets, or outside of them. -/
def indicatesAtStart (inFlow : Bool) : List Char → Bool
  | [] => false
  | c :: rest =>
    openingIndicators.contains c || ((c = '?' || c = ':') && (inFlow || endsHere rest)) ||
      (c = '-' && endsHere rest)

/-- Whether a later character of a text is an indicator; `previous` is the character before it. -/
def indicatesWithin (inFlow : Bool) (previous : Char) : List Char → Bool
  | [] => false
  | c :: rest =>
    (inFlow && (c = ',' || c = '?' || c = '[' || c = ']' || c = '\x7b' || c = '\x7d')) ||
      (c = ':' && (inFlow || endsHere rest)) || (c = '#' && separates previous) ||
      indicatesWithin inFlow c rest

/-- Whether some part of a text would be taken for an indicator. -/
def indicates (inFlow : Bool) (cs : List Char) : Bool :=
  startsWithMark cs || indicatesAtStart inFlow cs ||
    match cs with
    | [] => false
    | c :: rest => indicatesWithin inFlow c rest

/-- Whether a character can be written without an escape: printable ASCII and line feeds. -/
def isCommon (c : Char) : Bool := c = '\n' || (' ' ≤ c && c ≤ '~')

/-- Whether somewhere in a text one given character directly follows another. -/
def hasPair (a b : Char) : List Char → Bool
  | c :: d :: rest => (c = a && d = b) || hasPair a b (d :: rest)
  | _ => false

/-- Whether a text starts or ends with a space or a line feed. -/
def hasLooseEnd (cs : List Char) : Bool :=
  cs.head?.any (fun c => c = ' ' || c = '\n') || cs.getLast?.any (fun c => c = ' ' || c = '\n')

/-- Whether a text can be written plain. -/
def allowsPlain (inFlow : Bool) (cs : List Char) : Bool :=
  if cs.isEmpty then !inFlow
  else cs.all (fun c => ' ' ≤ c && c ≤ '~') && !hasLooseEnd cs && !indicates inFlow cs

/-- Whether a text can be written between single quotes. -/
def allowsSingle (cs : List Char) : Bool :=
  cs.all isCommon && !hasPair '\n' ' ' cs && !hasPair ' ' '\n' cs

/-- Whether a text can be written as a block of lines. -/
def allowsBlock (cs : List Char) : Bool :=
  !cs.isEmpty && cs.all isCommon && cs.getLast? ≠ some ' ' && !hasPair ' ' '\n' cs

/-! ## Styles -/

/-- The written form of a scalar. -/
inductive ScalarStyle where
  | plain
  | single
  | double
  | block
  deriving DecidableEq

/-- The style of a scalar; `isKey` tells the keys that stand on one line with their values. -/
def ScalarStyle.choose (inFlow isKey : Bool) (tag : Tag) (t : Text) : ScalarStyle :=
  match t.toChars? with
  | none => .double
  | some cs =>
    if tag = .binary then if !inFlow && !isKey && allowsBlock cs then .block else .double
    else if Tag.ofChars cs = tag ∧ allowsPlain inFlow cs ∧ ¬(isKey ∧ cs.isEmpty) then .plain
    else if allowsSingle cs ∧ ¬(isKey ∧ cs.contains '\n') then .single
    else .double

/-- The tag as it is written before a scalar: nothing where the text in its style tells the tag. -/
def writtenTag (style : ScalarStyle) (tag : Tag) : List Char :=
  if style = .plain ∨ tag = .str then [] else tag.shortName

/-! ## Writing -/

/-- Writes a plain text on lines that start at a column. -/
def writePlain (column : Nat) (fold : Bool) (previous : Char) : List Char → Pen → Pen
  | [], p => p
  | c :: rest, p =>
    let isFold :=
      fold && c = ' ' && previous ≠ ' ' && rest.head? ≠ some ' ' && lastColumn < p.column
    writePlain column fold c rest
      (if isFold then { p.indent column with spaced := false, indenting := false } else p.put [c])

/-- Writes a text between single quotes on lines that start at a column. A run of line feeds gets
one more, because a single one stands for a space. -/
def writeSingle (column : Nat) (fold : Bool) (previous : Option Char) : List Char → Pen → Pen
  | [], p => p
  | c :: rest, p =>
    let isFold := fold && c = ' ' && previous.any (· ≠ ' ') && rest.head?.any (· ≠ ' ') &&
      lastColumn < p.column
    let next :=
      if isFold then p.indent column
      else if c = '\n' then
        let p := (if previous = some '\n' then p else p.newLine).newLine
        if rest.head? = some '\n' then p else p.indent column
      else if c = '\'' then p.put ['\'', '\'']
      else p.put [c]
    writeSingle column fold (some c) rest next

/-- The letter that follows the backslash in a short escape. -/
def shortEscape? (c : Char) : Option Char :=
  [('\x00', '0'), ('\x07', 'a'), ('\x08', 'b'), ('\t', 't'), ('\n', 'n'), ('\x0B', 'v'),
    ('\x0C', 'f'), ('\r', 'r'), ('\x1B', 'e'), ('"', '"'), ('\\', '\\'), ('\x85', 'N'),
    ('\xA0', '_'), ('\u2028', 'L'), ('\u2029', 'P')].lookup c

/-- The escape of a code point: a short one, or its number in two, four or eight digits. -/
def escapeText (point : CodePoint) : List Char :=
  let n := point.toNat
  let digits (width : Nat) : List Char := (hexPadded width n).map Char.toUpper
  match point.toChar?.bind shortEscape? with
  | some letter => ['\\', letter]
  | none =>
    if n ≤ 0xFF then '\\' :: 'x' :: digits 2
    else if n ≤ 0xFFFF then '\\' :: 'u' :: digits 4
    else '\\' :: 'U' :: digits 8

/-- Whether a code point between double quotes needs an escape. -/
def needsEscape (point : CodePoint) : Bool :=
  !point.isCharWith fun c => c ≠ '"' && c ≠ '\\' && ' ' ≤ c && c ≤ '~'

/-- Goes on with a text between double quotes on the next line; a space there gets a backslash. -/
def foldDouble (column : Nat) (next : Option CodePoint) (p : Pen) : Pen :=
  let p := { (p.put ['\\']).indent column with spaced := false, indenting := false }
  if next = some (.char ' ') then p.put ['\\'] else p

/-- Writes a text between double quotes on lines that start at a column. `isFirst` tells that
nothing has been written yet, and `afterEscape` that the code point before was escaped. -/
def writeDouble (column : Nat) (fold isFirst afterEscape : Bool) : Text → Pen → Pen
  | [], p => p
  | point :: rest, p =>
    let mayFold := fold && !isFirst && !rest.isEmpty
    if needsEscape point then
      let p := p.put (escapeText point)
      writeDouble column fold false true rest
        (if mayFold && lastColumn + 1 < p.column then foldDouble column rest.head? p else p)
    else
      let isFold := mayFold && (point = .char ' ' || afterEscape) && lastColumn < p.column
      writeDouble column fold false false rest
        ((if isFold then foldDouble column (some point) p else p).put [point.display])

/-- Writes lines, each one at a column. -/
def writeBlock (column : Nat) (atStart : Bool) : List Char → Pen → Pen
  | [], p => if atStart then p else p.newLine
  | c :: rest, p =>
    if c = '\n' then writeBlock column true rest p.newLine
    else writeBlock column false rest ((if atStart then p.indent column else p).put [c])

/-- Writes the text of a scalar in a style; lines after the first start at a column. -/
def writeScalarText (style : ScalarStyle) (column : Nat) (fold : Bool) (t : Text) (p : Pen) : Pen :=
  match style with
  | .plain =>
    match t.toChars with
    | [] => p
    | c :: rest => writePlain column fold c rest (p.mark [c])
  | .single => (writeSingle column fold none t.toChars (p.mark ['\''])).closingMark ['\'']
  | .double => (writeDouble column fold true false t (p.mark ['"'])).closingMark ['"']
  | .block => writeBlock column true t.toChars (p.mark ['|']).newLine

end Treewalk.Yaml
