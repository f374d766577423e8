import Treewalk.Document.Calendar
import Treewalk.Expr.Equality
import Treewalk.Number.Binary64

/-!
# Documents

A document is decoded data: what reading a text gives before it is known whether the data describe a
tree. Beside the scalars and collections of the text formats it may hold an expression that has been
built already, and links: a link stands for a collection in a table that comes with the document
(`Treewalk.Data`), and so a collection can contain itself.

The entries of a mapping keep the order in which their keys first came. Keys are compared by
`sameKey`: numbers and truth values by their numeric value, moments by the point in time, and all
other keys by equality. Undefined numbers are told apart by their bits. Setting a key that is there
already replaces the value and leaves key and place alone.
-/

namespace Treewalk

open Number

/-- Decoded data. -/
inductive Document where
  | null
  | bool (b : Bool)
  | int (n : Int)
  | real (x : Binary64)
  | text (t : Text)
  | bytes (data : List UInt8)
  | date (d : CalendarDate)
  | moment (m : Moment)
  | list (items : List Document)
  | tuple (items : List Document)
  | set (members : List Document)
  | map (entries : List (Document × Document))
  /-- An expression that has been built already. -/
  | node (e : Expr)
  /-- The collection at a place of the table. -/
  | link (place : Nat)

instance : Inhabited Document := ⟨.null⟩

namespace Document

/-! ## Keys -/

/-- The numeric value of the documents that have one: an integer or a floating point number. -/
def numeric? : Document → Option (Int ⊕ Binary64)
  | bool b => some (.inl (if b then 1 else 0))
  | int n => some (.inl n)
  | real x => some (.inr x)
  | _ => none

/-- Equality of numeric values. -/
def sameNumber : Int ⊕ Binary64 → Int ⊕ Binary64 → Bool
  | .inl m, .inl n => m == n
  | .inl m, .inr y => y.equalsInt m
  | .inr x, .inl n => x.equalsInt n
  | .inr x, .inr y => x == y || x.numEq y

mutual

/-- Whether two documents are the same key of a mapping. -/
def sameKey : Document → Document → Bool
  | null, b => match b with | null => true | _ => false
  | bool a, b => b.numeric?.any (sameNumber (.inl (if a then 1 else 0)))
  | int m, b => b.numeric?.any (sameNumber (.inl m))
  | real x, b => b.numeric?.any (sameNumber (.inr x))
  | text s, b => match b with | text t => s == t | _ => false
  | bytes s, b => match b with | bytes t => s == t | _ => false
  | date d, b => match b with | date d' => d == d' | _ => false
  | moment m, b => match b with | moment m' => m.sameInstant m' | _ => false
  | tuple as, b => match b with | tuple bs => sameKeys as bs | _ => false
  | node e, b => match b with | node e' => decide (e = e') | _ => false
  | list _, _ => false
  | set _, _ => false
  | map _, _ => false
  | link _, _ => false

/-- Whether two lists have the same keys place by place. -/
def sameKeys : List Document → List Document → Bool
  | [], bs => bs.isEmpty
  | a :: as, bs => match bs with | b :: bs => sameKey a b && sameKeys as bs | [] => false

end

/-- Whether a document can be a key: collections that can change cannot. -/
def isKey : Document → Bool
  | list _ | set _ | map _ | link _ => false
  | tuple items => allKeys items
  | _ => true
where
  allKeys : List Document → Bool
    | [] => true
    | d :: ds => isKey d && allKeys ds

/-- The entries after a key has been set. -/
def setEntry {α : Type} (key : Document) (value : α) : List (Document × α) → List (Document × α)
  | [] => [(key, value)]
  | (k, v) :: rest =>
    if sameKey k key then (k, value) :: rest else (k, v) :: setEntry key value rest

/-- The mapping that results when the entries are set one after another. -/
def ofEntries (entries : List (Document × Document)) : Document :=
  map (entries.foldl (fun done entry => setEntry entry.1 entry.2 done) [])

/-- The value at a key that is a text. -/
def field? (name : Text) : List (Document × Document) → Option Document
  | [] => none
  | (text key, value) :: rest => if key = name then some value else field? name rest
  | _ :: rest => field? name rest

/-- A mapping whose keys are texts. -/
def record (fields : List (String × Document)) : Document :=
  map (fields.map fun f => (text (.ofString f.1), f.2))

/-! ## Properties of single documents -/

/-- Whether a document counts as empty: null, no, zero, or a text or collection with nothing in it.
A collection that a link stands for holds something. -/
def isEmpty : Document → Bool
  | null => true
  | bool b => !b
  | int n => n == 0
  | real x => x.isZero
  | text t => t.isEmpty
  | bytes data => data.isEmpty
  | list items => items.isEmpty
  | tuple items => items.isEmpty
  | set members => members.isEmpty
  | map entries => entries.isEmpty
  | date _ | moment _ | node _ | link _ => false

/-- The name of the type of a document, as messages give it. -/
def typeName : Document → String
  | null => "NoneType"
  | bool _ => "bool"
  | int _ => "int"
  | real _ => "float"
  | text _ => "str"
  | bytes _ => "bytes"
  | date _ => "date"
  | moment _ => "datetime"
  | list _ => "list"
  | tuple _ => "tuple"
  | set _ => "set"
  | map _ => "dict"
  | node e => e.className
  | link _ => "collection"

/-- The value that was set last is found at its key. -/
theorem field?_setEntry (name : Text) (value : Document) (entries : List (Document × Document)) :
    field? name (setEntry (text name) value entries) = some value := by
  induction entries with
  | nil => simp [setEntry, field?]
  | cons entry rest ih =>
    obtain ⟨k, v⟩ := entry
    unfold setEntry
    split
    · next h =>
      cases k <;> simp_all [sameKey, field?, numeric?]
    · next h =>
      cases k <;> simp_all [sameKey, field?, numeric?]

/-- The fields of a record are found by their names. -/
theorem field?_record (name : String) (fields : List (String × Document)) :
    field? name (fields.map fun f => (text (.ofString f.1), f.2)) = fields.lookup name := by
  induction fields with
  | nil => rfl
  | cons f fields ih =>
    obtain ⟨key, value⟩ := f
    simp only [List.map_cons, field?, Text.ofString_inj, ih, List.lookup_cons]
    by_cases h : key = name
    · simp [h]
    · have h' : (name == key) = false := by simpa using Ne.symm h
      simp [h, h']

end Document

end Treewalk
