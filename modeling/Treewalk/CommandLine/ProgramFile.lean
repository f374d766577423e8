import Treewalk.CommandLine.Arguments
import Treewalk.CommandLine.Transcript
import Treewalk.Format.Write
import Treewalk.Tree.Encode

/-!
# Program files

A program file is read as UTF-8, and its line breaks are made line feeds. Its format is the one that
was asked for, else that of its name, else the one it looks like.

The command runs the program and shows its value. On demand it shows the source of the program
first, or writes the program as a document in YAML and runs nothing.
-/

namespace Treewalk.CommandLine

/-- What there is under the name of a program file. -/
inductive FileContent where
  | missing
  | directory
  | notADirectory
  | nameTooLong
  | bytes (data : List UInt8)

/-- The parts of a path, without the empty ones and those that stay where they are. -/
def pathParts (path : Text) : List Text :=
  (path.splitOn (.char '/')).filter fun part => part ≠ [] ∧ part ≠ [.char '.']

/-- A path without the parts that do not matter. -/
def cleanPath (path : Text) : Text :=
  let root : Text :=
    match path.takeWhile (· == .char '/') with
    | [] => []
    | [_, _] => "//"
    | _ => "/"
  match root ++ Text.join "/" (pathParts path) with
  | [] => "."
  | clean => clean

/-- The last part of a path. -/
def fileName (path : Text) : Text := (pathParts path).getLast?.getD []

/-- A text whose line breaks are line feeds. -/
def unifyBreaks : List Char → List Char
  | [] => []
  | '\r' :: '\n' :: rest => '\n' :: unifyBreaks rest
  | '\r' :: rest => '\n' :: unifyBreaks rest
  | c :: rest => c :: unifyBreaks rest

/-- The text of a file. -/
def fileText (data : List UInt8) : Except Mishap (List Char) :=
  match Charset.utf8Fault? data with
  | some (position, fault) => .error (.notUtf8 position fault)
  | none => .ok (unifyBreaks (Charset.utf8.decode data))

/-- Why a program cannot be shown. -/
inductive LoadFault where
  | read (fault : ReadFault)
  | tree (fault : TreeFault)

/-- The program of a document in a format. -/
def loadProgram (text : Text) (format : Option Format) : Except LoadFault (Option Expr) :=
  match readDocument (.text text) (format.map fun f => .ofString f.name) none with
  | .error fault => .error (.read fault)
  | .ok d =>
    match Tree.decode Tree.depthLimit d with
    | .error fault => .error (.tree fault)
    | .ok program => .ok program

/-- The document of a program in YAML. -/
def dumpText (program : Option Expr) : Except TreeFault Text := do
  let d ← Tree.encodeDocument ((program.map Document.node).getD .null)
  match writeText .yaml true d with
  | .ok t => return t
  | .error _ => throw (.notEncodable d)

/-- Runs a program and shows its value. -/
def runText (text : Text) (format : Option Format) (s : Session) (t : Transcript) :
    Ending × Transcript :=
  let (answer, _, t) := handle text format s t
  match answer with
  | .error b => (.broken (.session b), t)
  | .ok ⟨.failure _ message, _⟩ => (.exit 1, t.warn message)
  | .ok ⟨.success v, _⟩ => (.exit 0, showValue v t)

/-- The calls that are open where the command begins to lay out a program. -/
def callsAroundTree : Nat := 3

/-- The status of a command that failed. -/
def failureStatus : Nat := 1

/-- Shows or writes a program, if that is asked for, and runs it unless it was written. -/
def processText (a : Arguments) (text : Text) (format : Option Format) (s : Session) :
    Ending × Transcript :=
  let t := Transcript.blank
  let refuse (message : Text) : Ending × Transcript :=
    (.exit failureStatus, t.warn ("Error: " ++ message))
  if a.showTree || a.dump then
    match loadProgram text format with
    | .error (.read fault) =>
      if fault.isReported then refuse fault.message else (.broken (.session (.unread fault)), t)
    | .error (.tree fault) =>
      refuse (if fault.isShowable then fault.message else TreeFault.unshowable)
    | .ok program =>
      if a.dump then
        match dumpText program with
        | .ok text => (.exit 0, t.say text)
        | .error fault => refuse fault.message
      else
        let tree := (program.map Document.node).getD .null
        if callsAroundTree + tree.layoutDepth ≤ Session.standardLimit then
          runText text format s (t.say (tree.layout Expr.standardWidth 0 ++ "\n"))
        else (.broken .treeTooDeep, t)
  else runText text format s t

/-- Processes a program file. -/
def processFile (a : Arguments) (path : Text) (content : FileContent) (s : Session) :
    Ending × Transcript :=
  match content with
  | .missing => (.exit failureStatus, Transcript.blank.warn ("Error: file not found: " ++ path))
  | .directory => (.broken (.directory (cleanPath path)), .blank)
  | .notADirectory => (.broken (.notADirectory (cleanPath path)), .blank)
  | .nameTooLong => (.broken (.nameTooLong (cleanPath path)), .blank)
  | .bytes data =>
    match fileText data with
    | .error mishap => (.broken mishap, .blank)
    | .ok cs =>
      let name := (some (fileName path)).filter (!·.isEmpty)
      let text := Text.ofChars cs
      processText a text (a.format.or (Format.detect? none name (some text))) s

end Treewalk.CommandLine
