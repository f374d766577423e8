import Treewalk.CommandLine.Command

/-!
# The program

The command with real files, a real prompt and the environment of its process.
-/

namespace Treewalk.CommandLine

/-- What there is under a name in the file system. -/
def findFile (path : Text) : IO FileContent := do
  let name := (cleanPath path).display
  try
    return .bytes (← IO.FS.readBinFile name).toList
  catch
    | .noFileOrDirectory .. => return .missing
    | .inappropriateType .. => return .directory
    | e => throw e

/-- Writes a transcript. -/
def Transcript.flush (t : Transcript) : IO Unit := do
  (← IO.getStdout).putStr t.out.toText.display
  (← IO.getStdout).flush
  (← IO.getStderr).putStr t.err.toText.display

/-- The status of the process for an ending. -/
def Ending.status : Ending → IO UInt32
  | .exit status => return status.toUInt32
  | .interrupted => do
    (← IO.getStdout).putStr farewell
    return 0
  | .broken mishap => do
    (← IO.getStderr).putStr (mishap.message.display ++ "\n")
    return 1

/-- Asks for lines and answers them. -/
partial def converse (s : Session) : IO UInt32 := do
  (← IO.getStdout).putStr prompt
  (← IO.getStdout).flush
  let line ← (← IO.getStdin).getLine
  if line.isEmpty then
    (← IO.getStdout).putStr farewell
    return 0
  let (reply, t) := answerLine line s .blank
  t.flush
  match reply with
  | .next s => converse s
  | .leave => return 0
  | .broken b => Ending.status (.broken (.session b))

end Treewalk.CommandLine

open Treewalk Treewalk.CommandLine

/-- The command of the process. -/
def main (words : List String) : IO UInt32 := do
  let outside := (← IO.getEnv "FWJS_RECURSION_LIMIT").map Text.ofString
  match Task.ofWords (words.map Text.ofString) outside with
  | .finish ending t =>
    t.flush
    ending.status
  | .processFile a path s =>
    let (ending, t) := processFile a path (← findFile path) s
    t.flush
    ending.status
  | .answerLines s t =>
    t.flush
    converse s
