import Treewalk.Document.Data

/-!
# The shown form of documents

The text of a document inside messages: texts between quotes, collections between brackets, built
expressions in constructor form. A collection inside itself is shown as three dots between its
brackets.

Integers with too many digits cannot be shown (`Data.isShowable`), because writing them takes
quadratic time.
-/

namespace Treewalk

open Number Text

namespace Document

section

variable (link : Nat → String)

mutual

/-- The shown form of a document, given those of its links. -/
def shownWith : Document → String
  | null => "None"
  | bool b => showBool b
  | int n => showInt n
  | real x => String.ofList x.render
  | text t => quote t
  | bytes data => String.ofList (quotedBytes data)
  | date d => d.shown
  | moment m => m.shown
  | list items => showList (shownItems items)
  | tuple items => showTuple (shownItems items)
  | set members =>
    if members.isEmpty then "set()" else "\x7b" ++ ", ".intercalate (shownItems members) ++ "\x7d"
  | map entries => "\x7b" ++ ", ".intercalate (shownEntries entries) ++ "\x7d"
  | node e => e.shown
  | .link place => link place

/-- The shown forms of the items of a collection. -/
def shownItems : List Document → List String
  | [] => []
  | d :: ds => shownWith d :: shownItems ds

/-- The shown forms of the entries of a mapping. -/
def shownEntries : List (Document × Document) → List String
  | [] => []
  | (k, v) :: rest => (shownWith k ++ ": " ++ shownWith v) :: shownEntries rest

end

end

/-- What is shown of a collection inside itself. -/
def ellipsis : Document → String
  | list _ => "[...]"
  | tuple _ => "(...)"
  | _ => "\x7b...\x7d"

mutual

/-- The scalars and links in a document, in front of others. -/
def leaves (others : List Document) : Document → List Document
  | list items => leavesOf others items
  | tuple items => leavesOf others items
  | set members => leavesOf others members
  | map entries => leavesOfEntries others entries
  | d => d :: others

/-- The scalars and links in documents, in front of others. -/
def leavesOf (others : List Document) : List Document → List Document
  | [] => others
  | d :: ds => leaves (leavesOf others ds) d

/-- The scalars and links in entries, in front of others. -/
def leavesOfEntries (others : List Document) : List (Document × Document) → List Document
  | [] => others
  | (k, v) :: rest => leaves (leaves (leavesOfEntries others rest) v) k

end

end Document

namespace Data

/-- The shown form of a link of a table. The collections in `around` are being shown already, and at
most `bound` more can be. -/
def shownLink (table : Array Document) : Nat → List Nat → Nat → String
  | 0, _, _ => ""
  | bound + 1, around, place =>
    let d := follow table (.link place)
    if around.contains place then d.ellipsis
    else d.shownWith (shownLink table bound (place :: around))

/-- The shown form of data. -/
def shown (data : Data) : String :=
  data.root.shownWith (shownLink data.table (data.table.size + 1) [])

/-- The scalars in documents and in the collections that their links stand for; `unseen` are the
places of the table that have not been looked at. -/
def scalars (table : Array Document) (unseen : List Nat) (leaves : List Document) :
    List Document :=
  match leaves with
  | [] => []
  | .link place :: rest =>
    if _h : place ∈ unseen then
      scalars table (unseen.erase place) ((follow table (.link place)).leaves rest)
    else scalars table unseen rest
  | d :: rest => d :: scalars table unseen rest
termination_by (unseen.length, leaves.length)
decreasing_by
  · rw [List.length_erase_of_mem _h]
    have := List.length_pos_of_mem _h
    exact .left _ _ (by omega)
  · exact .right _ (by simp)
  · exact .right _ (by simp)

/-- Whether data can be shown: no integer in them has too many digits. -/
def isShowable (data : Data) : Bool :=
  (scalars data.table (List.range data.table.size) (data.root.leaves [])).all fun d =>
    match d with
    | .int n => hasFewDigits n
    | _ => true

end Data

namespace Document

/-- The shown form of a document without links. -/
def shown (d : Document) : String := (Data.ofDocument d).shown

/-- The text that a document is converted to: a text is itself, and all else has its shown form. -/
def asText : Document → Text
  | text t => t
  | d => d.shown

/-- The text of a document at a level of indentation: nothing for null, the source of an expression,
and the shown form of anything else. -/
def layout (width level : Int) : Document → Text
  | null => []
  | node e => e.source width level
  | d => d.shown

/-- The calls that are open at once while a document is laid out. What is no expression is laid out
at once. -/
def layoutDepth : Document → Nat
  | null => 2
  | node e => e.layoutDepth
  | _ => 3

end Document

end Treewalk
