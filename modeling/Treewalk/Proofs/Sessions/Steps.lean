import Mathlib.Tactic.SplitIfs
import Treewalk.Session

/-!
# Steps of a session

A step runs one program and takes away what it has written. `Session.runAll` makes a step for each
program, whatever the earlier steps have answered; `Session.runUntilFailure` makes no step after one
that does not succeed.

What a step answers is the verdict about the end of its evaluation (`step_some`). Where a fault has
no message, because the node that was evaluated last is nested too deeply, there is no report; the
condition for that is `step_unexplained?_eq_some_iff`.
-/

namespace Treewalk

namespace Session

/-- What a step shows: the answer, and the text that was written. -/
structure Step where
  answer : Except Breakdown Report
  written : Text

namespace Step

/-- The verdict of a step that was not broken off. -/
def verdict (step : Step) : Except Breakdown Verdict := step.answer.map Report.verdict

/-- Whether a step has a value. -/
def succeeds (step : Step) : Bool :=
  match step.verdict with
  | .ok (.success _) => true
  | _ => false

/-- The kind of the fault that a step reports. -/
def kind? (step : Step) : Option FaultKind :=
  match step.verdict with
  | .ok (.failure kind _) => some kind
  | _ => none

/-- The kind of the fault that a step does not report, because its message cannot be laid out. -/
def unexplained? (step : Step) : Option FaultKind :=
  match step.verdict with
  | .error (.messageTooDeep kind) => some kind
  | _ => none

/-- The kind of the fault with which a step ends, be it reported or not. -/
def fault? (step : Step) : Option FaultKind := step.kind?.or step.unexplained?

/-- Whether two steps end with the same fault or none and write the same, and are related if both
can explain their faults. -/
structure Agrees (related : Step → Step → Prop) (step step' : Step) : Prop where
  fault : step.fault? = step'.fault?
  written : step.written = step'.written
  explained : step.unexplained? = none → step'.unexplained? = none → related step step'

end Step

/-- Runs a program for its answer and for the text that it writes. -/
def step (rounds : Nat) (program : Option Expr) (s : Session) : Step × Session :=
  let (answer, s) := s.takeWritten.2.run rounds program
  let (written, s) := s.takeWritten
  (⟨answer, written⟩, s)

/-- Makes a step for each of some programs. -/
def runAll (rounds : Nat) : List (Option Expr) → Session → List Step × Session
  | [], s => ([], s)
  | program :: programs, s =>
    let (step, s) := s.step rounds program
    let (steps, s) := runAll rounds programs s
    (step :: steps, s)

/-- Makes a step for each of some expressions, up to the first one that does not succeed. -/
def runUntilFailure (rounds : Nat) : List Expr → Session → List Step × Session
  | [], s => ([], s)
  | e :: es, s =>
    let (step, s) := s.step rounds (some e)
    if step.succeeds then
      let (steps, s) := runUntilFailure rounds es s
      (step :: steps, s)
    else ([step], s)

/-- The machine in which a step begins. -/
def ready (s : Session) : Machine := s.takeWritten.2.fresh.machine

theorem ready_eq (s : Session) :
    s.ready = ⟨s.machine.store, [], .null, .empty, s.machine.keep, .empty, s.machine.tracing,
      s.machine.trace⟩ :=
  rfl

/-! ## Depths -/

/-- A limit that allows a run is not too small to start. -/
theorem lt_of_depthOf {limit : Option Int} {depth : Nat} (h : depthOf limit = .ok depth) :
    hopelessLimit < depth := by
  unfold depthOf at h
  split at h
  · cases h
    decide
  · split_ifs at h <;> cases h
    · decide
    · omega

/-- A limit that allows no run breaks it off, or it is reported as used up. -/
theorem depthOf_error {limit : Option Int} {refused : Breakdown ⊕ Report}
    (h : depthOf limit = .error refused) :
    (∃ breakdown, refused = .inl breakdown ∧
        (breakdown = .limitOverflow ∨ breakdown = .limitNotPositive)) ∨
      ∃ message, refused = .inr (refusal .stackExhaustion message) := by
  unfold depthOf at h
  split at h
  · cases h
  · split_ifs at h <;> cases h
    · exact .inl ⟨_, rfl, .inl rfl⟩
    · exact .inl ⟨_, rfl, .inr rfl⟩
    · exact .inr ⟨_, rfl⟩

/-! ## Verdicts -/

/-- The end of an evaluation that fails, and that a depth was allowed for in which the message of
the fault cannot be laid out. -/
inductive FailsTooDeep (rounds depth : Nat) (e : Expr) (m : Machine) : FaultKind → Machine → Prop
  where
  | mk {fault m'} : Run.eval rounds depth e globalScope m = (.failed fault, m') →
    depth < callsAroundMessage + m'.current.layoutDepth →
    FailsTooDeep rounds depth e m fault.kind m'

variable {rounds depth : Nat} {s : Session}

/-- A message lacks just where the node that was evaluated last needs too much depth. -/
theorem verdictOf_failed (depth : Nat) (fault : Fault) (m : Machine) :
    (∃ message, verdictOf depth m (.failed fault) = .ok (.failure fault.kind message)) ∧
        callsAroundMessage + m.current.layoutDepth ≤ depth ∨
      verdictOf depth m (.failed fault) = .error (.messageTooDeep fault.kind) ∧
        depth < callsAroundMessage + m.current.layoutDepth := by
  rw [verdictOf, explain]
  by_cases h : callsAroundMessage + m.current.layoutDepth ≤ depth
  · rw [if_pos h]
    exact .inl ⟨⟨_, rfl⟩, h⟩
  · rw [if_neg h]
    exact .inr ⟨rfl, Nat.lt_of_not_le h⟩

/-! ## Single steps -/

/-- The step of an empty program. -/
theorem step_none (rounds : Nat) (s : Session) :
    s.step rounds none = (⟨.ok ⟨.success none, []⟩, []⟩, ⟨s.ready, s.limit⟩) :=
  rfl

/-- A step evaluates its program and answers with the verdict about the evaluation. -/
theorem step_some (hdepth : depthOf s.limit = .ok depth) {e : Expr} {outcome : Outcome Value}
    {m : Machine} (h : Run.eval rounds depth e globalScope s.ready = (outcome, m)) :
    s.step rounds (some e) =
      (⟨(verdictOf depth m outcome).map fun v => ⟨v, m.records.toList⟩, m.written.toText⟩,
        ⟨{ m with written := .empty }, s.limit⟩) := by
  have hlimit : depthOf s.takeWritten.2.fresh.limit = .ok depth := hdepth
  unfold step run
  dsimp only
  rw [hlimit]
  dsimp only
  rw [show Run.eval rounds depth e globalScope s.takeWritten.2.fresh.machine = _ from h]
  rfl

/-- The verdict of a step is the verdict about the evaluation. -/
theorem verdict_of_eval (depth : Nat) (m : Machine) (outcome : Outcome Value) (written : Text) :
    Step.verdict ⟨(verdictOf depth m outcome).map fun v => ⟨v, m.records.toList⟩, written⟩ =
      verdictOf depth m outcome := by
  unfold Step.verdict
  cases verdictOf depth m outcome <;> rfl

/-- A step whose evaluation fails ends with the fault, be it reported or not. -/
theorem fault?_of_failed (depth : Nat) (fault : Fault) (m : Machine) (written : Text) :
    Step.fault? ⟨(verdictOf depth m (.failed fault)).map fun v => ⟨v, m.records.toList⟩, written⟩ =
      some fault.kind := by
  rw [Step.fault?, Step.kind?, Step.unexplained?, verdict_of_eval]
  rcases verdictOf_failed depth fault m with ⟨⟨message, hv⟩, -⟩ | ⟨hv, -⟩
  · rw [hv]
    rfl
  · rw [hv]
    rfl

/-- A step whose depth cannot be had evaluates nothing. -/
theorem step_of_error (rounds : Nat) {refused : Breakdown ⊕ Report}
    (hdepth : depthOf s.limit = .error refused) (e : Expr) :
    s.step rounds (some e) =
      (⟨refused.elim .error .ok, []⟩, ⟨s.ready, s.limit⟩) := by
  have hlimit : depthOf s.takeWritten.2.fresh.limit = .error refused := hdepth
  unfold step run
  dsimp only
  rw [hlimit]
  cases refused <;> rfl

/-- A step leaves a fault unexplained just if the message is too deep. -/
theorem step_unexplained?_eq_some_iff {program : Option Expr} {kind : FaultKind} :
    (s.step rounds program).1.unexplained? = some kind ↔
      ∃ e depth m, program = some e ∧ depthOf s.limit = .ok depth ∧
        FailsTooDeep rounds depth e s.ready kind m := by
  constructor
  · intro h
    cases program with
    | none => cases h
    | some e =>
      cases hdepth : depthOf s.limit with
      | error refused =>
        rw [step_of_error rounds hdepth] at h
        rcases depthOf_error hdepth with ⟨_, rfl, rfl | rfl⟩ | ⟨_, rfl⟩
        · cases h
        · cases h
        · cases h
      | ok depth =>
        rcases heval : Run.eval rounds depth e globalScope s.ready with ⟨outcome, m⟩
        rw [step_some hdepth heval] at h
        cases outcome with
        | failed fault =>
          refine ⟨e, depth, m, rfl, rfl, ?_⟩
          unfold Step.unexplained? at h
          rw [verdict_of_eval] at h
          rcases verdictOf_failed depth fault m with ⟨⟨message, hv⟩, -⟩ | ⟨hv, hdeep⟩
          · rw [hv] at h
            cases h
          · rw [hv] at h
            cases h
            exact .mk heval hdeep
        | done | exhausted | unfinished => cases h
  · rintro ⟨e, depth, m, rfl, hdepth, @⟨fault, m, heval, hdeep⟩⟩
    rw [step_some hdepth heval, Step.unexplained?, verdict_of_eval]
    rcases verdictOf_failed depth fault m with ⟨-, hfits⟩ | ⟨hv, -⟩
    · omega
    · rw [hv]

theorem runAll_cons (program : Option Expr) (programs : List (Option Expr)) :
    s.runAll rounds (program :: programs) =
      ((s.step rounds program).1 :: ((s.step rounds program).2.runAll rounds programs).1,
        ((s.step rounds program).2.runAll rounds programs).2) :=
  rfl

section

variable {e : Expr}

theorem runUntilFailure_of_succeeds (h : (s.step rounds (some e)).1.succeeds) (es : List Expr) :
    s.runUntilFailure rounds (e :: es) =
      ((s.step rounds (some e)).1 :: ((s.step rounds (some e)).2.runUntilFailure rounds es).1,
        ((s.step rounds (some e)).2.runUntilFailure rounds es).2) := by
  rw [runUntilFailure]
  dsimp only
  rw [if_pos h]

theorem runUntilFailure_of_fails (h : ¬(s.step rounds (some e)).1.succeeds) (es : List Expr) :
    s.runUntilFailure rounds (e :: es) =
      ([(s.step rounds (some e)).1], (s.step rounds (some e)).2) := by
  rw [runUntilFailure]
  dsimp only
  rw [if_neg h]

theorem runUntilFailure_single :
    s.runUntilFailure rounds [e] = ([(s.step rounds (some e)).1], (s.step rounds (some e)).2) := by
  by_cases h : (s.step rounds (some e)).1.succeeds
  · rw [runUntilFailure_of_succeeds h]
    rfl
  · rw [runUntilFailure_of_fails h]

end

/-- All steps but the last one succeed, and if this one does, too, no expression is left. -/
theorem exists_last_step (rounds : Nat) (e : Expr) (es : List Expr) (s : Session) :
    ∃ earlier last, (s.runUntilFailure rounds (e :: es)).1 = earlier ++ [last] ∧
      (∀ step ∈ earlier, step.succeeds) ∧ (last.succeeds → earlier.length = es.length) := by
  induction es generalizing e s with
  | nil =>
    rw [runUntilFailure_single]
    exact ⟨[], _, rfl, by simp, fun _ => rfl⟩
  | cons e' es ih =>
    by_cases h : (s.step rounds (some e)).1.succeeds
    · obtain ⟨earlier, last, heq, hearlier, hlast⟩ := ih e' (s.step rounds (some e)).2
      rw [runUntilFailure_of_succeeds h, heq]
      refine ⟨_ :: earlier, last, rfl, List.forall_mem_cons.mpr ⟨h, hearlier⟩, fun hs => ?_⟩
      rw [List.length_cons, List.length_cons, hlast hs]
    · rw [runUntilFailure_of_fails h]
      exact ⟨[], _, rfl, by simp, fun hs => absurd hs h⟩

end Session

end Treewalk
