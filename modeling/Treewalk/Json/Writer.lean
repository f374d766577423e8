import Treewalk.Json.Text
import Treewalk.Document.Show

/-!
# Writing JSON

A document is written on one line or, with a width, on indented lines: each item of a collection
then has a line of its own, and an empty collection stays on one line. Tuples are written as lists.
Keys that are numbers, truth values or null are written as strings. A document that holds anything
else has no JSON form; the first such part is reported.
-/

namespace Treewalk.Json

open Number

/-- Why a document has no JSON form; the type of the part that has none. -/
inductive WriteFault where
  | value (type : String)
  | key (type : String)

/-- The wording of a fault. -/
def WriteFault.message : WriteFault → String
  | value type => "Object of type " ++ type ++ " is not JSON serializable"
  | key type => "keys must be str, int, float, bool or None, not " ++ type

/-- How lines are broken: not at all, or with an indentation of `width` for each level. -/
inductive Layout where
  | oneLine
  | indented (width : Nat)

namespace Layout

/-- The text after an opening bracket, and before a closing one, at a level. -/
def lineAt (l : Layout) (level : Nat) : Text :=
  match l with
  | oneLine => []
  | indented width => '\n' :: List.replicate (width * level) ' '

/-- The text between two items at a level. -/
def between (l : Layout) (level : Nat) : Text :=
  match l with
  | oneLine => [',', ' ']
  | indented _ => ',' :: l.lineAt level

/-- A collection from its brackets and the texts of its items. -/
def enclose (l : Layout) (level : Nat) (opening closing : Char) (items : List Text) : Text :=
  if items.isEmpty then [.char opening, .char closing]
  else .char opening :: l.lineAt (level + 1) ++ (l.between (level + 1)).intercalate items ++
    l.lineAt level ++ [.char closing]

end Layout

/-- The JSON form of a number. -/
def writeReal (x : Binary64) : List Char :=
  if x.isNaN then ['N', 'a', 'N']
  else if x.isInfinite then
    (if x.isNegative then ['-'] else []) ++ ['I', 'n', 'f', 'i', 'n', 'i', 't', 'y']
  else x.render

/-- The text of a key. -/
def keyText : Document → Except WriteFault Text
  | .text t => .ok t
  | .int n => .ok (.ofChars (renderInt n))
  | .real x => .ok (.ofChars (writeReal x))
  | .bool true => .ok "true"
  | .bool false => .ok "false"
  | .null => .ok "null"
  | d => .error (.key d.typeName)

mutual

/-- The JSON form of a document at a level. -/
def writeAt (l : Layout) (level : Nat) : Document → Except WriteFault Text
  | .null => .ok "null"
  | .bool true => .ok "true"
  | .bool false => .ok "false"
  | .int n => .ok (.ofChars (renderInt n))
  | .real x => .ok (.ofChars (writeReal x))
  | .text t => .ok (writeText t)
  | .list items => do return l.enclose level '[' ']' (← writeItems l (level + 1) items)
  | .tuple items => do return l.enclose level '[' ']' (← writeItems l (level + 1) items)
  | .map entries => do return l.enclose level '\x7b' '\x7d' (← writeEntries l (level + 1) entries)
  | .bytes _ => .error (.value "bytes")
  | .date _ => .error (.value "date")
  | .moment _ => .error (.value "datetime")
  | .set _ => .error (.value "set")
  | .node e => .error (.value e.className)
  | .link place => .error (.value (Document.link place).typeName)

/-- The JSON forms of items at a level. -/
def writeItems (l : Layout) (level : Nat) : List Document → Except WriteFault (List Text)
  | [] => .ok []
  | d :: ds => do
    let first ← writeAt l level d
    let rest ← writeItems l level ds
    return first :: rest

/-- The JSON forms of entries at a level. -/
def writeEntries (l : Layout) (level : Nat) :
    List (Document × Document) → Except WriteFault (List Text)
  | [] => .ok []
  | (k, v) :: rest => do
    let key ← keyText k
    let value ← writeAt l level v
    let others ← writeEntries l level rest
    return (writeText key ++ .char ':' :: .char ' ' :: value) :: others

end

/-- The JSON form of a document. -/
def write (l : Layout) (d : Document) : Except WriteFault Text := writeAt l 0 d

end Treewalk.Json
