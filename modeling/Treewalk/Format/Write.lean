import Treewalk.Format.Detect
import Treewalk.Json.Writer
import Treewalk.Yaml.Writer

/-!
# Writing documents

A document is written in a named format, on as few lines as possible or laid out for reading.
-/

namespace Treewalk

/-- Why a document cannot be written. -/
inductive WriteFault where
  /-- There is no format of that name; there may be no name at all. -/
  | unsupported (format : Option Text)
  | json (fault : Json.WriteFault)
  | yaml (fault : Yaml.WriteFault)

/-- The wording of a fault. -/
def WriteFault.message : WriteFault → String
  | unsupported none => "Unsupported serialization format: None"
  | unsupported (some name) => "Unsupported serialization format: " ++ quote name
  | json fault => fault.message
  | yaml fault => fault.message

/-- The number of columns by which JSON is indented for reading. -/
def jsonIndent : Nat := 2

/-- Writes a document in a format. -/
def writeText (format : Format) (pretty : Bool) (d : Document) : Except WriteFault Text :=
  match format with
  | .json =>
    match Json.write (if pretty then .indented jsonIndent else .oneLine) d with
    | .ok t => .ok t
    | .error f => .error (.json f)
  | .yaml =>
    match Yaml.write (if pretty then .simpleInside else .allInside) d with
    | .ok cs => .ok (.ofChars cs)
    | .error f => .error (.yaml f)

/-- Writes a document in the format of a name. -/
def writeDocument (format : Option Text) (pretty : Bool) (d : Document) :
    Except WriteFault Text :=
  match format.bind Format.ofName? with
  | none => .error (.unsupported format)
  | some format => writeText format pretty d

end Treewalk
