import Treewalk.Proofs.Semantics.Rules

/-!
# What a log does to a machine

A log lists what could be seen of an evaluation. `printedLines` and `openCalls` say what is left of
it at the end: the lines that were printed, and the calls that were entered and not left.
`Follows m log m'` says that a machine `m'` is a later state of `m`, between which just the log
could be seen. Logs that follow each other are put together by `Follows.trans`.
-/

namespace Treewalk

/-- The line that was printed. -/
def Event.line? : Event → Option Text
  | .printed line => some line
  | .entered _ | .left => none

/-- The open calls after an event, the innermost first. -/
def Event.callsAfter (calls : List Frame) : Event → List Frame
  | .printed _ => calls
  | .entered call => call :: calls
  | .left => calls.tail

/-- The lines that were printed, in order. -/
def printedLines (log : List Event) : List Text := log.filterMap Event.line?

/-- The calls that are open after a log, where some were open before it. -/
def openCalls (calls : List Frame) (log : List Event) : List Frame :=
  log.foldl Event.callsAfter calls

theorem printedLines_append (log log' : List Event) :
    printedLines (log ++ log') = printedLines log ++ printedLines log' :=
  List.filterMap_append

theorem openCalls_append (calls : List Frame) (log log' : List Event) :
    openCalls calls (log ++ log') = openCalls (openCalls calls log) log' :=
  List.foldl_append

/-- Whether a log leaves all calls that it enters, and no other ones. -/
def Quiet (log : List Event) : Prop := ∀ calls, openCalls calls log = calls

namespace Quiet

variable {log log' : List Event}

theorem nil : Quiet [] := fun _ => rfl

theorem printed (line : Text) : Quiet [.printed line] := fun _ => rfl

theorem append (h : Quiet log) (h' : Quiet log') : Quiet (log ++ log') := by
  intro calls
  rw [openCalls_append, h, h']

/-- A call that is left. -/
theorem call (call : Frame) (h : Quiet log) : Quiet (.entered call :: (log ++ [.left])) := by
  intro calls
  show openCalls (call :: calls) (log ++ [.left]) = calls
  rw [openCalls_append, h]
  rfl

end Quiet

/-- Adds lines to a text, each with a line feed after it. -/
def Text.Buffer.pushLines (b : Buffer) (lines : List Text) : Buffer :=
  lines.foldl (fun b line => (b.push line).push "\n") b

theorem Text.Buffer.pushLines_append (b : Buffer) (lines lines' : List Text) :
    b.pushLines (lines ++ lines') = (b.pushLines lines).pushLines lines' :=
  List.foldl_append

/-- Whether a machine is a later state of another one, between which just the log could be seen. -/
structure Follows (m : Machine) (log : List Event) (m' : Machine) : Prop where
  written : m'.written = m.written.pushLines (printedLines log)
  frames : m'.frames = openCalls m.frames log

namespace Follows

variable {m m₁ m₂ : Machine} {log₁ log₂ : List Event}

/-- A log after another one. -/
theorem trans (h₁ : Follows m log₁ m₁) (h₂ : Follows m₁ log₂ m₂) : Follows m (log₁ ++ log₂) m₂ where
  written := by
    rw [h₂.written, h₁.written, printedLines_append, Text.Buffer.pushLines_append]
  frames := by
    rw [h₂.frames, h₁.frames, openCalls_append]

end Follows

end Treewalk
