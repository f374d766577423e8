import Treewalk.Format.Read
import Treewalk.Machine.Eval
import Treewalk.Tree.Decode

/-!
# Sessions

A session runs one program after another in the same global scope. Each run starts with no calls, no
current node and no printed lines, and ends in a report: the value, or the kind of the fault and a
message that names the node that was evaluated last and the calls that led to it.

The depth of evaluation is bounded by the limit of the session, or by `standardLimit`. A limit that
is too small to start at all is reported like a run that used up its depth. A limit that is no limit
breaks off the run.

The limit is in force while the message of a fault is made, too. A node that is nested too deeply to
be laid out then breaks off the run after its evaluation: there is no report, and the session goes
on as the evaluation has left it.
-/

namespace Treewalk

/-- What a run reports. -/
inductive Verdict where
  /-- The run succeeded; an empty program has no value. -/
  | success (value : Option Value)
  | failure (kind : FaultKind) (message : Text)

/-- The report of a run: the verdict, and the lines that were printed, the last of them at least. -/
structure Report where
  verdict : Verdict
  output : List Text

/-- A text that should give the limit of a session and is no integer. -/
structure NotALimit where
  given : Text

/-- The wording of the fault. -/
def NotALimit.message (f : NotALimit) : String :=
  "FWJS_RECURSION_LIMIT must be an integer, got " ++ quote f.given

/-- Why a run is broken off without a report. -/
inductive Breakdown where
  /-- The limit is below one. -/
  | limitNotPositive
  /-- The limit has more than 31 bits. -/
  | limitOverflow
  /-- The document cannot be read for a reason that is not reported. -/
  | unread (fault : ReadFault)
  /-- The document describes no tree, and its data hold an integer with too many digits to be shown.
  -/
  | longInteger
  /-- The message of a fault of some kind shows a node that is nested too deeply to be laid out. -/
  | messageTooDeep (kind : FaultKind)
  /-- A loop was not finished in the rounds that it was given. -/
  | unfinished

/-- The wording for depth that is used up. -/
def exhaustedMessage : String := "maximum recursion depth exceeded"

/-- The wording of a breakdown. -/
def Breakdown.message : Breakdown → Text
  | limitNotPositive => "recursion limit must be greater or equal than 1"
  | limitOverflow => "Python int too large to convert to C int"
  | unread fault => fault.message
  | longInteger => TreeFault.unshowable
  | messageTooDeep _ => exhaustedMessage
  | unfinished => "loop not finished"

/-- A session. -/
structure Session where
  machine : Machine
  limit : Option Int

namespace Session

/-- A session in which nothing was run. -/
def start (limit : Option Int) (tracing : Bool) : Session := ⟨.initial standardKeep tracing, limit⟩

/-- The limit of a session: the one that is given, or the one that a text from outside gives; an
empty text gives none. -/
def chooseLimit (given : Option Int) (outside : Option Text) : Except NotALimit (Option Int) :=
  match given, outside with
  | some limit, _ => .ok (some limit)
  | none, none => .ok none
  | none, some text =>
    if text.isEmpty then .ok none
    else
      match Number.readInt 10 text.toChars with
      | .ok limit => .ok (some limit)
      | .error _ => .error ⟨text⟩

/-- The depth of evaluation where no limit is set. -/
def standardLimit : Nat := 1000

/-- The greatest limit that is too small to start a run. -/
def hopelessLimit : Int := 5

/-- The rounds that a loop may make: more than any run can live to see. -/
def standardRounds : Nat := 1000000000000000000

/-- The number of calls that are shown at each end of a long list of calls. -/
def callsShown : Nat := 8

/-- A call, with the texts of its arguments. -/
def showFrame (f : Frame) : Text := Text.join " " (f.name :: f.args.map Value.text)

/-- The calls that have been entered and not left, the outermost first; of many only the first and
the last ones. -/
def showCalls (frames : List Frame) : Text :=
  if frames.isEmpty then []
  else
    let all := frames.reverse.map fun f => "(" ++ showFrame f ++ ")"
    let shown :=
      if 2 * callsShown < all.length then
        all.take callsShown ++
          [Text.ofString ("... " ++ showInt (all.length - 2 * callsShown : Nat) ++ " more ...")] ++
          all.drop (all.length - callsShown)
      else all
    "\nFWJS stacktrace: " ++ Text.join " " shown

/-- The calls that are open where a message begins to lay out a node. -/
def callsAroundMessage : Nat := 4

/-- The message of a fault, as a report gives it, if a depth suffices to lay out the node that was
evaluated last. To show the open calls takes no more depth than to enter one of them. -/
def explain (depth : Nat) (fault : Fault) (m : Machine) : Except Breakdown Text :=
  if callsAroundMessage + m.current.layoutDepth ≤ depth then
    let node : Text := match m.current with
      | .null => []
      | d => "\nAt: " ++ d.layout Expr.standardWidth 0
    .ok (fault.kind.name ++ ": " ++ fault.message ++ node ++ showCalls m.frames)
  else .error (.messageTooDeep fault.kind)

/-- The message of a run that used up its depth. -/
def explainExhaustion (m : Machine) : Text :=
  FaultKind.stackExhaustion.name ++ ": " ++ exhaustedMessage ++ " after " ++
    showInt m.frames.length ++ " nested calls" ++ showCalls m.frames

/-- The verdict about an evaluation that a depth was allowed for and that ended in a machine. -/
def verdictOf (depth : Nat) (m : Machine) : Outcome Value → Except Breakdown Verdict
  | .done v => .ok (.success (some v))
  | .failed fault => (explain depth fault m).map (.failure fault.kind)
  | .exhausted => .ok (.failure .stackExhaustion (explainExhaustion m))
  | .unfinished => .error .unfinished

/-- The message of a run whose limit is too small to start. -/
def hopelessMessage (limit : Int) : String :=
  "recursion limit " ++ showInt limit ++ " is below the current stack depth"

/-- The report of a fault of a kind, without printed lines. -/
def refusal (kind : FaultKind) (message : Text) : Report :=
  ⟨.failure kind (kind.name ++ ": " ++ message), []⟩

/-- The scope in which programs run. -/
def globalScope : ScopeId := 0

/-- The depth that a limit allows; zero stands for no limit. -/
def depthOf : Option Int → Except (Breakdown ⊕ Report) Nat
  | none => .ok standardLimit
  | some limit =>
    if limit = 0 then .ok standardLimit
    else if limit < Value.intMin ∨ Value.intMax < limit then .error (.inl .limitOverflow)
    else if limit < 0 then .error (.inl .limitNotPositive)
    else if limit ≤ hopelessLimit then
      .error (.inr (refusal .stackExhaustion (hopelessMessage limit)))
    else .ok limit.toNat

/-- The session before a run: nothing was called, evaluated or printed. -/
def fresh (s : Session) : Session :=
  { s with machine := { s.machine with frames := [], current := .null, records := .empty } }

/-- The text that was written since it was last taken away, and the session without it. -/
def takeWritten (s : Session) : Text × Session :=
  (s.machine.written.toText, { s with machine := { s.machine with written := .empty } })

/-- The lines that were traced since they were last taken away, and the session without them. -/
def takeTrace (s : Session) : Array Text × Session :=
  (s.machine.trace, { s with machine := { s.machine with trace := #[] } })

/-- Runs a program whose loops make at most `rounds` rounds. -/
def run (rounds : Nat) (program : Option Expr) (s : Session) : Except Breakdown Report × Session :=
  let s := s.fresh
  match program with
  | none => (.ok ⟨.success none, []⟩, s)
  | some e =>
    match depthOf s.limit with
    | .error (.inl b) => (.error b, s)
    | .error (.inr r) => (.ok r, s)
    | .ok depth =>
      let (outcome, m) := Run.eval rounds depth e globalScope s.machine
      ((verdictOf depth m outcome).map fun v => ⟨v, m.records.toList⟩, { s with machine := m })

/-- Reads a document and runs it. A document that cannot be read or describes no tree is reported,
and the session stays as it was. -/
def handle (rounds : Nat) (source : Source) (format contentType : Option Text) (s : Session) :
    Except Breakdown Report × Session :=
  match readDocument source format contentType with
  | .error fault =>
    (if fault.isReported then .ok (refusal .parse fault.message) else .error (.unread fault), s)
  | .ok d =>
    match Tree.decode Tree.depthLimit d with
    | .error .tooDeep => (.ok (refusal .malformedTree TreeFault.depthMessage), s)
    | .error fault =>
      (if fault.isShowable then .ok (refusal .malformedTree fault.message) else .error .longInteger,
        s)
    | .ok program => run rounds program s

end Session

end Treewalk
