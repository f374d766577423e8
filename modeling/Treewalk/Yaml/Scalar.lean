import Treewalk.Yaml.Token
import Treewalk.Json.Text

/-!
# Reading scalars

The three ways to write a scalar: plain, between quotes, and as a block of lines. In all three,
lines are folded: one line break between two words becomes a space, and of several the first is
dropped. A block keeps its line breaks if it is literal.
-/

namespace Treewalk.Yaml

open Cursor

/-- What folding makes of a line break and the empty lines after it. -/
def foldBreaks (first : List Char) (further : List Char) : List Char :=
  (if first ≠ ['\n'] then first else if further.isEmpty then [' '] else []) ++ further

/-! ## Plain scalars -/

/-- The characters of a plain word: up to a blank, a line break, a colon that ends a key, or, inside
a flow collection, an indicator of it. -/
def plainWord (flow : Bool) : List Char → List Char
  | [] => []
  | c :: rest =>
    if c = ' ' || c = '\t' || isBreak c then []
    else if c = ':' && (endsIndicator rest.head? ||
        (flow && rest.head?.any fun d => d ∈ [',', '[', ']', '\x7b', '\x7d'])) then []
    else if flow && c ∈ [',', '?', '[', ']', '\x7b', '\x7d'] then []
    else c :: plainWord flow rest

/-- The line breaks between two lines of a plain scalar, with the spaces among them. `none` says
that a document mark follows. -/
def plainBreaks? (c : Cursor) (breaks : List Char) : Option (List Char × Cursor) :=
  if c.peek = some ' ' then
    let next := c.advance
    if next.left < c.left then plainBreaks? next breaks else some (breaks, c)
  else
    match c.lineBreak? with
    | none => some (breaks, c)
    | some (br, next) =>
      if next.atDocumentMark then none
      else if next.left < c.left then plainBreaks? next (breaks ++ br) else some (breaks, c)
termination_by c.left

/-- What stands between two words of a plain scalar: the text, the place after it, and whether a
line was ended. The text is empty if the scalar ends here. -/
def plainGap (c : Cursor) : List Char × Cursor × Bool :=
  let (spaces, c) := c.span (· == ' ')
  match c.lineBreak? with
  | none => (spaces, c, false)
  | some (br, next) =>
    if next.atDocumentMark then ([], next, true)
    else
      match plainBreaks? next [] with
      | none => ([], next, true)
      | some (further, after) => (foldBreaks br further, after, true)

/-- Reads on in a plain scalar that is indented by at least `indent`, from a word; `gap` stands in
front of it. The result says whether a line was ended at the end of the scalar. -/
def plainFrom (flow : Bool) (indent : Int) (gap : List Char) (ended : Bool) (c : Cursor) :
    List Char × Cursor × Bool :=
  if c.peek = some '#' then ([], c, ended)
  else
    let word := plainWord flow c.rest
    if word.isEmpty then ([], c, ended)
    else
      let (after, next, ended) := plainGap (c.advanceBy word.length)
      if after.isEmpty || next.peek = some '#' || (!flow && (next.column : Int) < indent) then
        (gap ++ word, next, ended)
      else if next.left < c.left then
        let (more, last, ended) := plainFrom flow indent after ended next
        (gap ++ word ++ more, last, ended)
      else (gap ++ word, next, ended)
termination_by c.left

/-! ## Quoted scalars -/

/-- The line breaks inside quotes, with the blanks around them; a document mark may not follow one.
-/
def quotedBreaks (c : Cursor) (breaks : List Char) : Except YamlFault (List Char × Cursor) :=
  if c.atDocumentMark then .error .malformed
  else
    let c' := c.skip fun x => x = ' ' || x = '\t'
    match c'.lineBreak? with
    | none => .ok (breaks, c')
    | some (br, next) =>
      if next.left < c.left then quotedBreaks next (breaks ++ br) else .ok (breaks, c')
termination_by c.left

/-- The blanks and line breaks between two words inside quotes. -/
def quotedGap (c : Cursor) : Except YamlFault (List Char × Cursor) := do
  let (blanks, c) := c.span fun x => x = ' ' || x = '\t'
  if c.peek.isNone then throw .malformed
  match c.lineBreak? with
  | none => return (blanks, c)
  | some (br, next) =>
    let (further, after) ← quotedBreaks next []
    return (foldBreaks br further, after)

/-- Reads a scalar between single quotes up to the closing one. -/
def singleQuoted (c : Cursor) : Except YamlFault (List Char × Cursor) :=
  match c.rest with
  | [] => .error .malformed
  | '\'' :: '\'' :: _ => do
    let next := c.advanceBy 2
    if next.left < c.left then
      let (more, after) ← singleQuoted next
      return ('\'' :: more, after)
    else throw .malformed
  | '\'' :: _ => .ok ([], c.advance)
  | x :: _ => do
    let (part, next) ← (if x = ' ' || x = '\t' || isBreak x then quotedGap c
      else .ok (c.span fun x => !(x = '\'' || x = ' ' || x = '\t' || isBreak x)) :
      Except YamlFault (List Char × Cursor))
    if next.left < c.left then
      let (more, after) ← singleQuoted next
      return (part ++ more, after)
    else throw .malformed
termination_by c.left

/-- The character that a one-letter escape stands for. -/
def letterEscape? (c : Char) : Option Char :=
  match c with
  | '0' => some '\x00'
  | 'a' => some '\x07'
  | 'b' => some '\x08'
  | 't' | '\t' => some '\t'
  | 'n' => some '\n'
  | 'v' => some '\x0b'
  | 'f' => some '\x0c'
  | 'r' => some '\r'
  | 'e' => some '\x1b'
  | ' ' => some ' '
  | '"' => some '"'
  | '\\' => some '\\'
  | '/' => some '/'
  | 'N' => some '\x85'
  | '_' => some '\xa0'
  | 'L' => some '\u2028'
  | 'P' => some '\u2029'
  | _ => none

/-- The number of hexadecimal digits of a numeric escape. -/
def escapeWidth? (c : Char) : Option Nat :=
  match c with
  | 'x' => some 2
  | 'u' => some 4
  | 'U' => some 8
  | _ => none

/-- The number that hexadecimal digits denote. -/
def hexNumber? (cs : List Char) : Option Nat :=
  cs.foldl (fun n? c => do return (← n?) * 16 + (← Json.hexValue? c)) (some 0)

/-- Reads an escape between double quotes, from the place after the backslash: the text that it
stands for, and the place after it. -/
def readEscape (c : Cursor) : Except YamlFault (Text × Cursor) :=
  match c.peek with
  | none => .error .malformed
  | some x =>
    match letterEscape? x with
    | some y => .ok ([.char y], c.advance)
    | none =>
      match escapeWidth? x with
      | some width =>
        let digits := (c.rest.drop 1).take width
        match (if digits.length = width then hexNumber? digits else none) with
        | none => .error .malformed
        | some n =>
          if 0x7FFFFFFF < n then .error .characterOverflow
          else if 0x10FFFF < n then .error .noSuchCharacter
          else .ok ([.ofNat n], c.advanceBy (1 + width))
      | none =>
        match c.lineBreak? with
        | none => .error .malformed
        | some (_, next) => do
          let (breaks, after) ← quotedBreaks next []
          return (.ofChars breaks, after)

/-- Reads an escape, a word, or what stands between two words inside double quotes; `x` is the next
character. -/
def doublePart (x : Char) (c : Cursor) : Except YamlFault (Text × Cursor) := do
  if x = '\\' then readEscape c.advance
  else if x = ' ' || x = '\t' || isBreak x then
    let (gap, next) ← quotedGap c
    return (.ofChars gap, next)
  else
    let (word, next) := c.span fun x => !(x = '"' || x = '\\' || x = ' ' || x = '\t' || isBreak x)
    return (.ofChars word, next)

/-- Reads a scalar between double quotes up to the closing one. -/
def doubleQuoted (c : Cursor) : Except YamlFault (Text × Cursor) :=
  match c.rest with
  | [] => .error .malformed
  | '"' :: _ => .ok ([], c.advance)
  | x :: _ => do
    let (part, next) ← doublePart x c
    if next.left < c.left then
      let (more, after) ← doubleQuoted next
      return (part ++ more, after)
    else throw .malformed
termination_by c.left

/-- Reads a quoted scalar from its opening quote. -/
def readQuoted (c : Cursor) : Except YamlFault (Text × Cursor) := do
  if c.peek = some '"' then doubleQuoted c.advance
  else
    let (text, after) ← singleQuoted c.advance
    return (.ofChars text, after)

/-! ## Block scalars -/

/-- What becomes of the line breaks at the end of a block. -/
inductive Chomping where
  /-- The last line break stays. -/
  | clip
  | strip
  | keep

/-- The head of a block: the chomping, the indentation if it is given, and the place after it. -/
def blockHead (c : Cursor) : Except YamlFault (Chomping × Option Nat × Cursor) := do
  let chomp? (c : Cursor) : Option Chomping :=
    match c.peek with
    | some '+' => some .keep
    | some '-' => some .strip
    | _ => none
  let digit? (c : Cursor) : Option Nat := (c.peek.filter Char.isDigit).map (·.toNat - '0'.toNat)
  let (chomping, increment, c) :=
    match chomp? c with
    | some chomping =>
      match digit? c.advance with
      | some n => (chomping, some n, c.advanceBy 2)
      | none => (chomping, none, c.advance)
    | none =>
      match digit? c with
      | some n =>
        match chomp? c.advance with
        | some chomping => (chomping, some n, c.advanceBy 2)
        | none => (.clip, some n, c.advance)
      | none => (.clip, none, c)
  if increment = some 0 ∨ !endsWord c.peek then throw .malformed
  let c := c.skipSpaces.skipComment
  if !endsLine c.peek then throw .malformed
  return (chomping, increment, match c.lineBreak? with | some (_, next) => next | none => c)

/-- The empty lines at the start of a block, the widest indentation among them and the first line
with text, and the place after them. -/
def leadingBreaks (c : Cursor) (breaks : List Char) (widest : Nat) : List Char × Nat × Cursor :=
  if c.peek = some ' ' then
    let next := c.advance
    if next.left < c.left then leadingBreaks next breaks (max widest next.column)
    else (breaks, widest, c)
  else
    match c.lineBreak? with
    | none => (breaks, widest, c)
    | some (br, next) =>
      if next.left < c.left then leadingBreaks next (breaks ++ br) widest else (breaks, widest, c)
termination_by c.left

/-- The place after the indentation of a line, at most up to a column. -/
def skipIndent (indent : Nat) (c : Cursor) : Cursor :=
  let spaces := (c.rest.takeWhile (· == ' ')).length
  c.advanceBy (min spaces (indent - c.column))

/-- The empty lines inside a block, each with up to `indent` spaces, and the place after them and
the indentation of the next line. -/
def blockBreaks (indent : Nat) (c : Cursor) (breaks : List Char) : List Char × Cursor :=
  let c' := skipIndent indent c
  match c'.lineBreak? with
  | none => (breaks, c')
  | some (br, next) =>
    if next.left < c.left then blockBreaks indent next (breaks ++ br) else (breaks, c')
termination_by c.left

/-- Reads the lines of a block from the start of a line with text. -/
def blockLines (folded : Bool) (indent : Nat) (chomping : Chomping) (c : Cursor) :
    List Char × Cursor :=
  let startsFlush (c : Cursor) : Bool := !c.nextIs fun x => x = ' ' || x = '\t'
  let (line, atEnd) := c.span (!isBreak ·)
  let (br, next) := atEnd.lineBreak?.getD ([], atEnd)
  let (further, after) := blockBreaks indent next []
  if after.column = indent && after.peek.isSome && after.left < c.left then
    let joined :=
      if folded && br = ['\n'] && startsFlush c && startsFlush after then
        if further.isEmpty then [' '] else []
      else br
    let (more, last) := blockLines folded indent chomping after
    (line ++ joined ++ further ++ more, last)
  else
    match chomping with
    | .strip => (line, after)
    | .clip => (line ++ br, after)
    | .keep => (line ++ br ++ further, after)
termination_by c.left
decreasing_by simp_all

/-- Reads a block scalar from its indicator; `indent` is the indentation of the block around it. -/
def readBlock (folded : Bool) (indent : Int) (c : Cursor) :
    Except YamlFault (List Char × Cursor) := do
  let (chomping, increment, c) ← blockHead c.advance
  let least := (max (indent + 1) 1).toNat
  let (breaks, column, c) := match increment with
    | some n =>
      let column := least + n - 1
      let (breaks, c) := blockBreaks column c []
      (breaks, column, c)
    | none =>
      let (breaks, widest, c) := leadingBreaks c [] 0
      (breaks, max least widest, c)
  if c.column = column && c.peek.isSome then
    let (text, after) := blockLines folded column chomping c
    return (breaks ++ text, after)
  else
    return (match chomping with | .keep => breaks | _ => [], c)

end Treewalk.Yaml
