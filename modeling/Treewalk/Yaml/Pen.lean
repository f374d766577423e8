import Treewalk.Yaml.Cursor

/-!
# The pen

What has been written of a YAML text, with what the next mark depends on: the column, whether a
blank stands before the pen, and whether nothing but indentation stands before it on its line.
-/

namespace Treewalk.Yaml

/-- A text that is being written. -/
structure Pen where
  /-- What has been written, the last character first. -/
  written : List Char
  column : Nat
  /-- Whether a blank or the start of the line stands before the pen. -/
  spaced : Bool
  /-- Whether only indentation, and marks that count as indentation, stand before the pen. -/
  indenting : Bool

namespace Pen

/-- The start of a text. -/
def start : Pen := ⟨[], 0, true, true⟩

/-- The text that has been written. -/
def text (p : Pen) : List Char := p.written.reverse

/-- Writes characters. -/
def put (cs : List Char) (p : Pen) : Pen :=
  { p with written := cs.reverseAux p.written, column := p.column + cs.length }

/-- Ends the line. -/
def newLine (p : Pen) : Pen := ⟨'\n' :: p.written, 0, true, true⟩

/-- Goes to a column: on this line if nothing but indentation stands before the pen, else on a new
line. -/
def indent (column : Nat) (p : Pen) : Pen :=
  let p := if !p.indenting || column < p.column || (p.column = column && !p.spaced) then p.newLine
    else p
  if p.column < column then
    { p.put (List.replicate (column - p.column) ' ') with spaced := true }
  else p

/-- Writes a mark, after a blank if one is missing. -/
def mark (cs : List Char) (p : Pen) : Pen :=
  { p.put (if p.spaced then cs else ' ' :: cs) with spaced := false, indenting := false }

/-- Writes a mark that stands right behind what is before it. -/
def closingMark (cs : List Char) (p : Pen) : Pen :=
  { p.put cs with spaced := false, indenting := false }

/-- Writes the mark that opens a bracket; no blank is needed after it. -/
def openingMark (cs : List Char) (p : Pen) : Pen := { p.mark cs with spaced := true }

/-- Writes a mark that counts as indentation. -/
def bullet (cs : List Char) (p : Pen) : Pen := { p.mark cs with indenting := p.indenting }

end Pen

end Treewalk.Yaml
