import Treewalk.Yaml.ScalarText

/-!
# Writing YAML

A collection is written between brackets, or with one item on each line: the items of a list after a
dash, the entries of a mapping with a colon between key and value. Lists that are values of entries
are not indented any further than their keys. A key that is long, empty, of several lines or a
collection with items stands after a question mark on a line of its own.

Between brackets, lines end before the first item that would start past the last column.
-/

namespace Treewalk.Yaml

open Number

/-- Where a node is written. -/
structure Place where
  /-- The column of the items of the collection around the node, if there is one. -/
  column : Option Nat
  /-- Whether the node stands between brackets. -/
  inFlow : Bool
  /-- Whether the node is a key or a value. -/
  inMap : Bool
  /-- Whether the node is a key that stands on one line with its value. -/
  isKey : Bool

namespace Place

/-- The place of a whole document. -/
def root : Place := ⟨none, false, false, false⟩

/-- The number of columns of one level of indentation. -/
def step : Nat := 2

/-- The column for what belongs to a scalar or a bracket. -/
def deeper (at? : Option Nat) : Nat :=
  match at? with
  | none => step
  | some column => column + step

/-- The column for the items of a collection without brackets. -/
def blockColumn (at? : Option Nat) : Nat :=
  match at? with
  | none => 0
  | some column => column + step

end Place

/-- The greatest length of a key that stands on one line with its value, its tag included. -/
def keyLimit : Nat := 127

/-- Whether a node can be a key on one line with its value. A carriage return makes no second line,
because it is always escaped. -/
def Outline.isShortKey : Outline → Bool
  | .scalar tag t =>
    !t.isEmpty && !t.any (·.isCharWith fun c => isBreak c && c ≠ '\r') &&
      tag.shortName.length + t.length ≤ keyLimit
  | n => n.isHollow

/-- Goes to a new line between brackets, if the line is full. -/
def Pen.breakLine (column : Nat) (p : Pen) : Pen :=
  if lastColumn < p.column then p.indent column else p

/-- Writes a scalar. -/
def writeScalar (place : Place) (tag : Tag) (t : Text) (p : Pen) : Pen :=
  let style := ScalarStyle.choose place.inFlow place.isKey tag t
  let p := match writtenTag style tag with
    | [] => p
    | tag => p.mark tag
  writeScalarText style (Place.deeper place.column) (!place.isKey) t p

mutual

/-- Writes a node. -/
def writeNode (place : Place) : Outline → Pen → Pen
  | .scalar tag t, p => writeScalar place tag t p
  | .list inside items, p =>
    if place.inFlow || inside || items.isEmpty then
      (writeFlowItems (Place.deeper place.column) true items (p.openingMark ['['])).closingMark
        [']']
    else
      let column :=
        match place.column with
        | some column =>
          if place.inMap && !p.indenting then column else Place.blockColumn place.column
        | none => Place.blockColumn none
      writeBlockItems column items p
  | .map tag inside entries, p =>
    let p := if tag = .map then p else p.mark tag.shortName
    if place.inFlow || inside || entries.isEmpty then
      (writeFlowEntries (Place.deeper place.column) true entries
        (p.openingMark ['\x7b'])).closingMark ['\x7d']
    else writeBlockEntries (Place.blockColumn place.column) entries p

/-- Writes items between brackets. -/
def writeFlowItems (column : Nat) (isFirst : Bool) : List Outline → Pen → Pen
  | [], p => p
  | n :: rest, p =>
    let p := (if isFirst then p else p.closingMark [',']).breakLine column
    writeFlowItems column false rest (writeNode ⟨some column, true, false, false⟩ n p)

/-- Writes entries between brackets. -/
def writeFlowEntries (column : Nat) (isFirst : Bool) : List (Outline × Outline) → Pen → Pen
  | [], p => p
  | (key, value) :: rest, p =>
    let p := (if isFirst then p else p.closingMark [',']).breakLine column
    let p :=
      if key.isShortKey then
        (writeNode ⟨some column, true, true, true⟩ key p).closingMark [':']
      else
        ((writeNode ⟨some column, true, true, false⟩ key (p.mark ['?'])).breakLine column).mark
          [':']
    writeFlowEntries column false rest (writeNode ⟨some column, true, true, false⟩ value p)

/-- Writes items on lines of their own. -/
def writeBlockItems (column : Nat) : List Outline → Pen → Pen
  | [], p => p
  | n :: rest, p =>
    writeBlockItems column rest
      (writeNode ⟨some column, false, false, false⟩ n ((p.indent column).bullet ['-']))

/-- Writes entries on lines of their own. -/
def writeBlockEntries (column : Nat) : List (Outline × Outline) → Pen → Pen
  | [], p => p
  | (key, value) :: rest, p =>
    let p := p.indent column
    let p :=
      if key.isShortKey then
        (writeNode ⟨some column, false, true, true⟩ key p).closingMark [':']
      else
        ((writeNode ⟨some column, false, true, false⟩ key (p.bullet ['?'])).indent column).bullet
          [':']
    writeBlockEntries column rest (writeNode ⟨some column, false, true, false⟩ value p)

end

/-- Whether a node is written as a plain scalar where it is the whole document. -/
def Outline.isPlainRoot : Outline → Bool
  | .scalar tag t => ScalarStyle.choose false false tag t = .plain
  | _ => false

/-- The text of an outline. A plain scalar alone is followed by the mark that ends a document. -/
def writeOutline (n : Outline) : List Char :=
  let p := (writeNode .root n .start).indent 0
  (if n.isPlainRoot then (p.mark ['.', '.', '.']).indent 0 else p).text

/-- Why a document cannot be written; `given` is the part that has no form. -/
structure WriteFault where
  given : Document

/-- The wording of the fault. -/
def WriteFault.message (f : WriteFault) : String :=
  showTuple [quote "cannot represent an object", f.given.shown]

/-- Writes a document. -/
def write (style : Bracketing) (d : Document) : Except WriteFault (List Char) :=
  match Outline.ofDocument style d with
  | .ok n => .ok (writeOutline n)
  | .error given => .error ⟨given⟩

end Treewalk.Yaml
