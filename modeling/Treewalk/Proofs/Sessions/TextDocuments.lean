import Treewalk.CommandLine.Prompt
import Treewalk.Proofs.Sessions.Steps
import Treewalk.Proofs.Tree.Faults
import Treewalk.Proofs.Yaml.DataFaults

/-!
# Texts that are handed in

A session owes an answer to every text (`Session.Answers`). The faults that are not reported break
it off instead; what brings them about is listed in `Session.BreaksOff`, and nothing else does
(`Session.answers_text`). A fault of reading leaves the session as it was. A fault of evaluation
that has no message leaves it as the evaluation has made it.
-/

namespace Treewalk

open Document

/-- Whether the integers in data have few digits, also in the collections that links stand for. -/
def Data.HasFewDigits (d : Data) : Prop :=
  d.root.Everywhere IsShort ∧ ∀ c ∈ d.table, c.Everywhere IsShort

/-! ## Reading -/

/-- Why reading a text may end with a fault that is not reported. -/
inductive BreaksReading (text : Text) : ReadFault → Prop where
  | yaml {cs f} : text = .ofChars cs → Yaml.Breaks cs f → BreaksReading text (.ofYaml .yaml f)

namespace Session

/-- How a text may break a session off that has no limit. -/
inductive BreaksOff (s : Session) (rounds : Nat) (text : Text) (format contentType : Option Text) :
    Except Breakdown Report × Session → Prop where
  /-- The text is read with a fault that is not reported, and the session stays as it was. -/
  | unread {fault} : readDocument (.text text) format contentType = .error fault →
    BreaksReading text fault →
    BreaksOff s rounds text format contentType (.error (.unread fault), s)
  /-- The data describe no tree, and they hold an integer with too many digits. -/
  | longInteger {d fault} : readDocument (.text text) format contentType = .ok d →
    Tree.decode Tree.depthLimit d = .error fault → ¬d.HasFewDigits →
    BreaksOff s rounds text format contentType (.error .longInteger, s)
  /-- The program fails, and the node that was evaluated last is nested too deeply for a message. -/
  | messageTooDeep {d e kind m} : readDocument (.text text) format contentType = .ok d →
    Tree.decode Tree.depthLimit d = .ok (some e) →
    FailsTooDeep rounds standardLimit e s.fresh.machine kind m →
    BreaksOff s rounds text format contentType
      (.error (.messageTooDeep kind), { s with machine := m })

variable {s : Session}

end Session

/-! ## The prompt -/

namespace CommandLine

open Session

variable {s : Session} {t : Transcript}

/-- Whether the command goes on without a limit, ends, or is broken off by the text of a line that
is handed to a session. -/
def Reply.Follows (s : Session) (text : Text) : Reply → Prop
  | next s' => s'.limit = none
  | leave => True
  | broken b => b = .unfinished ∨ ∃ s', s.BreaksOff rounds text none none (.error b, s')

end CommandLine

end Treewalk
