import Treewalk.Format.Charset
import Treewalk.Format.Detect
import Treewalk.Json.Reader
import Treewalk.Yaml.Reader

/-!
# Reading documents

A document is read from a text or from bytes. The format is the one that is given, or else the one
that the content type names or the text looks like, or else YAML. A text that is no JSON is read as
YAML instead, because the two overlap and one is often labelled as the other.

Most faults are reported to whoever handed in the document (`ReadFault.isReported`). The others
break off what is being done: an unknown character set, and tagged scalars that do not fit their tag
in a way that is not checked for.
-/

namespace Treewalk

open Json Yaml

/-- What a document is read from. -/
inductive Source where
  | text (t : Text)
  | bytes (data : List UInt8)

/-- The source that decoded data are: bytes and texts are themselves, and all else is the text that
it is converted to. -/
def Source.ofDocument : Document → Source
  | .bytes data => .bytes data
  | d => .text d.asText

/-- Why no document can be read. -/
inductive ReadFault where
  /-- The text breaks the rules of the format. -/
  | invalid (format : Format)
  /-- There is no format of that name. -/
  | unsupported (format : Text)
  | unknownCharset (name : Text)
  /-- The name of the character set holds the null character. -/
  | nullInCharset
  | surrogateInCharset (fault : SurrogateFault)
  | longInteger (digits : Nat)
  | tooDeep
  | noSuchCharacter
  | characterOverflow
  | notAnInteger (base : Nat) (given : Text)
  | notAReal (given : Text)
  | longReal
  | emptyNumber
  | unknownSwitch (given : Text)
  | notATimestamp
  | timestampOfMapping
  | calendar (fault : CalendarFault)
  deriving DecidableEq

namespace ReadFault

/-- The fault of a text that was labelled with a format and read as YAML. -/
def ofYaml (labelled : Format) : YamlFault → ReadFault
  | .malformed => invalid labelled
  | .tooDeep => tooDeep
  | .noSuchCharacter => noSuchCharacter
  | .characterOverflow => characterOverflow
  | .notAnInteger base given => notAnInteger base given
  | .longInteger digits => longInteger digits
  | .notAReal given => notAReal given
  | .longReal => longReal
  | .emptyNumber => emptyNumber
  | .unknownSwitch given => unknownSwitch given
  | .notATimestamp => notATimestamp
  | .timestampOfMapping => timestampOfMapping
  | .calendar fault => calendar fault

/-- The name of a format in messages. -/
def formatLabel : Format → String
  | .json => "JSON"
  | .yaml => "YAML"

/-- The wording of a fault. -/
def message : ReadFault → Text
  | invalid format => "Invalid " ++ formatLabel format ++ " document: <yaml>"
  | unsupported format => "Unsupported tree format: " ++ quote format
  | unknownCharset name => "unknown encoding: " ++ name
  | nullInCharset => "embedded null character"
  | surrogateInCharset fault => fault.message
  | longInteger digits =>
    "Exceeds the limit (" ++ showInt Number.digitLimit ++
      " digits) for integer string conversion: value has " ++ showInt digits ++
      " digits; use sys.set_int_max_str_digits() to increase the limit"
  | tooDeep => "maximum recursion depth exceeded"
  | noSuchCharacter => "chr() arg not in range(0x110000)"
  | characterOverflow => "Python int too large to convert to C int"
  | notAnInteger base given =>
    "invalid literal for int() with base " ++ showInt base ++ ": " ++
      String.ofList ((Text.quoted given).take 200)
  | notAReal given => "could not convert string to float: " ++ quote given
  | longReal => "int too large to convert to float"
  | emptyNumber => "string index out of range"
  | unknownSwitch given => quote given
  | notATimestamp => "'NoneType' object has no attribute 'groupdict'"
  | timestampOfMapping => "expected string or bytes-like object, got 'list'"
  | calendar fault => fault.message

/-- Whether a fault is reported to whoever handed in the document. -/
def isReported : ReadFault → Bool
  | unknownCharset _ | characterOverflow | longReal | emptyNumber | unknownSwitch _
  | notATimestamp | timestampOfMapping => false
  | _ => true

end ReadFault

/-- The text of bytes in the character set with a name. Where there are no bytes it does not matter
whether there is such a character set, but the name has to be a possible one. -/
def textOfBytes (name : Text) (data : List UInt8) : Except ReadFault Text :=
  match Text.surrogateFault? (fun _ => false) name with
  | some fault => .error (.surrogateInCharset fault)
  | none =>
    if name.contains (.char '\x00') then .error .nullInCharset
    else if data.isEmpty then .ok []
    else
      match Charset.ofName? name with
      | none => .error (.unknownCharset name)
      | some charset => .ok (.ofChars (charset.decode data))

/-- The text of a source; the character set of bytes is named by the content type, or UTF-8. -/
def Source.toText (source : Source) (contentType : Option Text) : Except ReadFault Text :=
  match source with
  | .text t => .ok t
  | .bytes data =>
    match (contentType.bind Format.charsetName?).filter (!·.isEmpty) with
    | none => .ok (.ofChars (Charset.utf8.decode data))
    | some name => textOfBytes name data

/-- Reads a text in YAML that was labelled with a format. -/
def readYaml (labelled : Format) (t : Text) : Except ReadFault Data :=
  match Yaml.read t with
  | .ok d => .ok d
  | .error f => .error (.ofYaml labelled f)

/-- Reads a text in a format. -/
def readText (format : Format) (t : Text) : Except ReadFault Data :=
  match format with
  | .yaml => readYaml .yaml t
  | .json =>
    match Json.read Json.depthLimit t with
    | .ok d => .ok d
    | .error .malformed => readYaml .json t
    | .error .tooDeep => .error .tooDeep
    | .error (.longInteger digits) => .error (.longInteger digits)

/-- The format of a text: the one that is given, or the one that is detected, or YAML. -/
def chooseFormat (given contentType : Option Text) (t : Text) : Except ReadFault Format :=
  match given.filter (!·.isEmpty) with
  | some name =>
    match Format.ofName? name with
    | some format => .ok format
    | none => .error (.unsupported name)
  | none => .ok ((Format.detect? contentType none (some t)).getD .yaml)

/-- Reads a document. -/
def readDocument (source : Source) (format contentType : Option Text) :
    Except ReadFault Data := do
  let t ← source.toText contentType
  readText (← chooseFormat format contentType t) t

end Treewalk
