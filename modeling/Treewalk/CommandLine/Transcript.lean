import Treewalk.Format.Charset
import Treewalk.Session
import Treewalk.Text.CodePoint

/-!
# Transcripts

What the command has written, to its output and to its error output, and how it ends.
-/

namespace Treewalk.CommandLine

/-- What has been written. -/
structure Transcript where
  out : Text.Buffer
  err : Text.Buffer

namespace Transcript

/-- The transcript before anything was written. -/
def blank : Transcript := ⟨.empty, .empty⟩

/-- Writes to the output. -/
def say (text : Text) (t : Transcript) : Transcript := { t with out := t.out.push text }

/-- Writes a line to the error output. -/
def warn (line : Text) (t : Transcript) : Transcript :=
  { t with err := (t.err.push line).push "\n" }

end Transcript

/-- Why the command is broken off. -/
inductive Mishap where
  | limit (fault : NotALimit)
  | session (breakdown : Breakdown)
  /-- The program is nested too deeply to be shown. -/
  | treeTooDeep
  /-- The program file is a directory. -/
  | directory (name : Text)
  /-- A part of the path to the program file is no directory. -/
  | notADirectory (name : Text)
  /-- The path to the program file holds the null character. -/
  | nullInPath
  | surrogateInPath (fault : SurrogateFault)
  /-- The path to the program file, or a part of it, is longer than names can be. -/
  | nameTooLong (name : Text)
  /-- The program file is no UTF-8: the place, and what is wrong there. -/
  | notUtf8 (position : Nat) (fault : Charset.Utf8Fault)

/-- The wording of a fault in a text that should be UTF-8. -/
def utf8Message (position : Nat) (fault : Charset.Utf8Fault) : String :=
  let byte (b : UInt8) : String := "0x" ++ String.ofList (Text.hexPadded 2 b.toNat)
  let one (b : UInt8) (reason : String) : String :=
    "'utf-8' codec can't decode byte " ++ byte b ++ " in position " ++ showInt position ++ ": " ++
      reason
  let several (b : UInt8) (count : Nat) (reason : String) : String :=
    if count = 1 then one b reason
    else
      "'utf-8' codec can't decode bytes in position " ++ showInt position ++ "-" ++
        showInt (position + count - 1 : Nat) ++ ": " ++ reason
  match fault with
  | .invalidStart b => one b "invalid start byte"
  | .invalidContinuation b there => several b there "invalid continuation byte"
  | .unexpectedEnd b there => several b there "unexpected end of data"

/-- The wording of a mishap. -/
def Mishap.message : Mishap → Text
  | limit fault => fault.message
  | session breakdown => breakdown.message
  | treeTooDeep => exhaustedMessage
  | directory name => "[Errno 21] Is a directory: " ++ quote name
  | notADirectory name => "[Errno 20] Not a directory: " ++ quote name
  | nullInPath => "embedded null byte"
  | surrogateInPath fault => fault.message
  | nameTooLong name => "[Errno 36] File name too long: " ++ quote name
  | notUtf8 position fault => utf8Message position fault

/-- How the command ends. -/
inductive Ending where
  | exit (status : Nat)
  /-- The user broke off while the command waited for a line. -/
  | interrupted
  | broken (mishap : Mishap)

/-- The rounds that a loop may make. -/
def rounds : Nat := Session.standardRounds

/-- Shows the value of a run; null and no value are not shown. -/
def showValue (v : Option Value) (t : Transcript) : Transcript :=
  match v with
  | none | some .null => t
  | some v => t.say (v.text ++ "\n")

/-- Reads a document, runs it, and writes what the run printed. -/
def handle (text : Text) (format : Option Format) (s : Session) (t : Transcript) :
    Except Breakdown Report × Session × Transcript :=
  let (answer, s) := s.handle rounds (.text text) (format.map fun f => .ofString f.name) none
  let (written, s) := s.takeWritten
  (answer, s, t.say written)

end Treewalk.CommandLine
