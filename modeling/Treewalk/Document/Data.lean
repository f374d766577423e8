import Treewalk.Document.Basic

/-!
# Data with links

Data are a document with a table for its links. Most data need no table: a link is needed only where
a collection contains itself.

Data may also be put together from cells. A cell is one collection whose parts are whole documents
or the places of other cells, and so cells can be made one by one, before their parts are known.
`Data.ofCells` puts them together: a cell from which no cycle can be reached becomes a document of
its own wherever its place stands, and only the other cells stay in the table.

Cells are settled from the inside outwards. A cell at which the walk arrives a second time before it
has left it lies on a cycle. The walk goes no deeper than there are cells.
-/

namespace Treewalk

/-- Decoded data: a document, and the table of the collections that its links stand for. -/
structure Data where
  root : Document
  table : Array Document

namespace Data

/-- Data without links. -/
def ofDocument (d : Document) : Data := ⟨d, #[]⟩

instance : Coe Document Data := ⟨ofDocument⟩

/-- The collection that a link of a table stands for, and any other document itself. -/
def follow (table : Array Document) : Document → Document
  | .link place => (table[place]?).getD .null
  | d => d

end Data

/-! ## Cells -/

/-- A part of a cell. -/
inductive Part where
  | whole (d : Document)
  /-- The cell at a place. -/
  | place (n : Nat)

/-- A collection that is put together from parts. -/
inductive Cell where
  | list (items : List Part)
  | tuple (items : List Part)
  | set (members : List Document)
  | map (entries : List (Document × Part))

namespace Cell

/-- The parts of a cell. -/
def parts : Cell → List Part
  | list items => items
  | tuple items => items
  | set _ => []
  | map entries => entries.map (·.2)

/-- The document of a cell, given those of its parts. -/
def toDocument (document : Part → Document) : Cell → Document
  | list items => .list (items.map document)
  | tuple items => .tuple (items.map document)
  | set members => .set members
  | map entries => .map (entries.map fun (k, p) => (k, document p))

/-- What is known about a cell while cells are settled. -/
inductive Mark where
  | unseen
  /-- The walk has entered the cell and not left it. -/
  | entered
  /-- No cycle can be reached from the cell. -/
  | whole (d : Document)
  /-- A cycle can be reached from the cell. -/
  | cyclic

/-- The document of a part as far as it is known to be whole, and a link otherwise. -/
def Mark.document (marks : Array Mark) : Part → Document
  | .whole d => d
  | .place n =>
    match marks[n]? with
    | some (.whole d) => d
    | _ => .link n

/-- Whether a part is known to be whole. -/
def Mark.isWhole (marks : Array Mark) : Part → Bool
  | .whole _ => true
  | .place n =>
    match marks[n]? with
    | some (.whole _) => true
    | _ => false

/-- Settles the cell of a part and the cells that can be reached from it; the walk goes at most
`depth` cells deep. -/
def settle (cells : Array Cell) : Nat → Array Mark → Part → Array Mark
  | _, marks, .whole _ => marks
  | 0, marks, .place _ => marks
  | depth + 1, marks, .place n =>
    match cells[n]?, marks[n]? with
    | some cell, some .unseen =>
      let marks := cell.parts.foldl (settle cells depth) (marks.setIfInBounds n .entered)
      let settled : Mark :=
        if cell.parts.all (Mark.isWhole marks) then .whole (cell.toDocument (Mark.document marks))
        else .cyclic
      marks.setIfInBounds n settled
    | _, _ => marks

end Cell

/-- The data that cells make up. -/
def Data.ofCells (cells : Array Cell) (root : Part) : Data :=
  let marks := Cell.settle cells (cells.size + 1) (.replicate cells.size .unseen) root
  let document := Cell.Mark.document marks
  ⟨document root,
    if Cell.Mark.isWhole marks root then #[] else cells.map (Cell.toDocument document)⟩

end Treewalk
