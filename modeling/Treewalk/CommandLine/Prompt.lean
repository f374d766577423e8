import Treewalk.CommandLine.Transcript

/-!
# The prompt

Without a program file the command asks for one document after another, each on a line of its own,
and runs them in one session. Blank lines are passed over; `exit` and the end of the input end the
command.
-/

namespace Treewalk.CommandLine

/-- What is said at the start. -/
def greeting : String :=
  "FWJS REPL v0.1\nEnter one JSON or YAML tree per line. Type 'exit' or press Ctrl+D to quit.\n"

/-- What is said where a line is asked for. -/
def prompt : String := ">> "

/-- What is said where the input ends or the user breaks off. -/
def farewell : String := "\nExiting.\n"

/-- How the command goes on after a line. -/
inductive Reply where
  | next (s : Session)
  | leave
  | broken (breakdown : Breakdown)

/-- Answers a line. -/
def answerLine (line : Text) (s : Session) (t : Transcript) : Reply × Transcript :=
  let text := Text.trimBlanks line
  if text.isEmpty then (.next s, t)
  else if text = "exit" then (.leave, t)
  else
    let (answer, s, t) := handle text none s t
    match answer with
    | .error b => (.broken b, t)
    | .ok ⟨.failure _ message, _⟩ => (.next s, t.warn message)
    | .ok ⟨.success v, _⟩ => (.next s, showValue v t)

/-- Answers lines until they end; `interrupted` says that the user breaks off there. -/
def answerLines (interrupted : Bool) (s : Session) (t : Transcript) :
    List Text → Ending × Transcript
  | [] =>
    if interrupted then (.interrupted, t.say prompt)
    else (.exit 0, (t.say prompt).say farewell)
  | line :: lines =>
    match answerLine line s (t.say prompt) with
    | (.next s, t) => answerLines interrupted s t lines
    | (.leave, t) => (.exit 0, t)
    | (.broken b, t) => (.broken (.session b), t)

end Treewalk.CommandLine
