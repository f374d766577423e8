import Treewalk.CommandLine.ProgramFile
import Treewalk.CommandLine.Prompt

/-!
# The command

What the whole command does with its arguments, the files it finds, the lines it is given, and the
limit that its surroundings set: a function from these to a transcript and an ending.
-/

namespace Treewalk.CommandLine

/-- Whether a surrogate stands for a byte of a path that is no UTF-8. The one with the number
`0xDC00 + b` stands for the byte `b`, which is no character of ASCII. -/
def standsForByte (point : CodePoint) : Bool :=
  match point with
  | .surrogate n => 0x480 ≤ n.val ∧ n.val < 0x500
  | .char _ => false

/-- The status of a command line that cannot be followed. -/
def usageStatus : Nat := 2

/-- What a command has to do, once its arguments are read. -/
inductive Task where
  | finish (ending : Ending) (t : Transcript)
  | processFile (a : Arguments) (path : Text) (s : Session)
  | answerLines (s : Session) (t : Transcript)

/-- Reads the arguments and starts the session; `outside` is the limit that the surroundings set. -/
def Task.ofWords (words : List Text) (outside : Option Text) : Task :=
  match Request.ofWords words with
  | .error fault => .finish (.exit usageStatus) (Transcript.blank.warn fault.report)
  | .ok .help => .finish (.exit 0) (Transcript.blank.say help)
  | .ok (.run a) =>
    let path? := a.program.filter (!·.isEmpty)
    let t := if path?.isSome then Transcript.blank else Transcript.blank.say greeting
    match Session.chooseLimit a.limit outside with
    | .error fault => .finish (.broken (.limit fault)) t
    | .ok limit =>
      let s := Session.start limit false
      match path? with
      | some path =>
        match Text.surrogateFault? standsForByte (cleanPath path) with
        | some fault => .finish (.broken (.surrogateInPath fault)) t
        | none =>
          if path.contains (.char '\x00') then .finish (.broken .nullInPath) t
          else .processFile a path s
      | none => .answerLines s t

/-- Runs the command. `find` gives the content of files, `lines` is the input, and `interrupted`
says that the user breaks off at its end. -/
def run (words : List Text) (outside : Option Text) (find : Text → FileContent)
    (lines : List Text) (interrupted : Bool) : Ending × Transcript :=
  match Task.ofWords words outside with
  | .finish ending t => (ending, t)
  | .processFile a path s => processFile a path (find path) s
  | .answerLines s t => answerLines interrupted s t lines

/-- A text cut into lines; each but the last ends with its line feed. -/
def linesOf : Text → List Text
  | [] => []
  | point :: rest =>
    if point = .char '\n' then [point] :: linesOf rest
    else
      match linesOf rest with
      | [] => [[point]]
      | line :: lines => (point :: line) :: lines

/-- The lines of a text make up the text. -/
theorem flatten_linesOf (t : Text) : (linesOf t).flatten = t := by
  induction t with
  | nil => rfl
  | cons c rest ih =>
    unfold linesOf
    split
    · simp [ih]
    · cases h : linesOf rest with
      | nil => simp [h] at ih; simp [ih]
      | cons line lines => simp [h] at ih; simp [ih]

end Treewalk.CommandLine
