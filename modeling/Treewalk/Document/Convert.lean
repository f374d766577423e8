import Treewalk.Document.Show

/-!
# Values from data

Integers are made from integers only; a truth value says whether the data are not empty. Among the
records of what a program did, those that are addressed to its output and nothing else make up its
printed lines.
-/

namespace Treewalk

/-- Data that are no integer. -/
structure NotAnInteger where
  given : Document

/-- The wording of the fault. -/
def NotAnInteger.message (f : NotAnInteger) : String :=
  "IntVal requires an int, not " ++ f.given.typeName

namespace Document

/-- The integer value of a document that is an integer. -/
def toIntValue : Document → Except NotAnInteger Value
  | int n => .ok (.ofInt n)
  | d => .error ⟨d⟩

/-- The truth value of a document. -/
def toBoolValue (d : Document) : Value := .bool !d.isEmpty

/-- The message of a record that is addressed to the output alone; a record without one has an empty
message. -/
def printedMessage? : Document → Option Document
  | map entries =>
    match field? "topics" entries with
    | some (list [text topic]) =>
      if topic = "stdout" then some ((field? "message" entries).getD (text [])) else none
    | _ => none
  | _ => none

/-- What a result says about its failure: nothing unless its status is `error`, else its message, or
that the error is unknown. -/
def failureText (status : Text) (message : Document) : Text :=
  if status ≠ "error" then []
  else if message.isEmpty then "Unknown error"
  else message.asText

end Document

end Treewalk
