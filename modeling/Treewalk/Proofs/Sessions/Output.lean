import Treewalk.Proofs.Machine.Prints
import Treewalk.Proofs.Sessions.Steps

/-!
# The lines that are written and kept

Whatever is evaluated one after another, and however it ends, the written text is one line for each
value that was printed, and the kept lines are the last of them, as many as should be kept
(`Session.lines_of_prints`). A run of a session begins with no lines and reports those that are
kept, so the same holds of each run by itself.
-/

namespace Treewalk

/-- What may become of a machine in which evaluations and calls take place one after another, and in
which anything but the lines may be changed meanwhile; with the values that are printed. -/
inductive Machine.Evaluations (m : Machine) : List Value → Machine → Prop where
  | start : Evaluations m [] m
  | eval {vs m₁} (rounds depth : Nat) (e : Expr) (scope : ScopeId) : Evaluations m vs m₁ →
      Evaluations m (vs ++ Run.printed rounds depth e scope m₁) (Run.eval rounds depth e scope m₁).2
  | call {vs m₁} (rounds depth : Nat) (site : Option Expr) (name : Text) (params : List Text)
      (body : Option Expr) (outer : ScopeId) (args : List Value) : Evaluations m vs m₁ →
      Evaluations m (vs ++ Run.printedByCall rounds depth site name params body outer args m₁)
        (Run.callClosure (Run.eval rounds depth) site name params body outer args m₁).2
  | change {vs m₁ m₂} : Evaluations m vs m₁ → m₂.written = m₁.written → m₂.records = m₁.records →
      m₂.keep = m₁.keep → Evaluations m vs m₂

/-- The printed forms of some values, each with a line feed after it. -/
def Value.lines (vs : List Value) : Text := vs.flatMap fun v => v.text ++ ("\n" : Text)

variable {m m' : Machine} {vs : List Value}

theorem Machine.Evaluations.prints (h : m.Evaluations vs m') : m.Prints vs m' := by
  induction h with
  | start => exact .refl m
  | eval rounds depth e scope _ ih => exact ih.trans (Run.prints_eval rounds depth e scope _)
  | call rounds depth site name params body outer args _ ih =>
    exact ih.trans (Run.prints_callClosure rounds depth site name params body outer args _)
  | change _ hwritten hrecords hkeep ih =>
    have hprints := ih.trans (.of_eq hwritten hrecords hkeep)
    rwa [List.append_nil] at hprints

/-- Printing adds a line for each value. -/
theorem Machine.Prints.toText_written (h : m.Prints vs m') :
    m'.written.toText = m.written.toText ++ Value.lines vs := by
  rw [h.written, Text.Buffer.toText_pushLines, List.flatMap_map]
  rfl

/-- If there were no lines before, the last ones are kept. -/
theorem Machine.Prints.toList_records (h : m.Prints vs m') (hempty : m.records.toList = []) :
    m'.records.toList = (vs.map Value.text).rtake m.keep.toNat := by
  rw [h.records]
  exact Records.toList_pushLines (hempty.trans (List.rtake_nil _).symm) _

namespace Session

variable {s : Session} {rounds : Nat} {program : Option Expr}

/-- The values that are printed in a run. -/
def printed (rounds : Nat) (program : Option Expr) (s : Session) : List Value :=
  match program, depthOf s.limit with
  | some e, .ok depth => Run.printed rounds depth e globalScope s.fresh.machine
  | _, _ => []

/-- A run prints what its evaluation prints, and reports the lines that are kept. -/
theorem prints_run (rounds : Nat) (program : Option Expr) (s : Session) :
    s.fresh.machine.Prints (s.printed rounds program) (s.run rounds program).2.machine ∧
      ∀ report, (s.run rounds program).1 = .ok report →
        report.output = (s.run rounds program).2.machine.records.toList := by
  have hnothing : s.fresh.machine.Prints [] s.fresh.machine := .refl _
  cases program with
  | none =>
    refine ⟨hnothing, ?_⟩
    rintro _ ⟨⟩
    rfl
  | some e =>
    have hlimit : depthOf s.fresh.limit = depthOf s.limit := rfl
    unfold printed run
    dsimp only
    rw [hlimit]
    cases hdepth : depthOf s.limit with
    | error refused =>
      rcases depthOf_error hdepth with ⟨_, rfl, -⟩ | ⟨_, rfl⟩
      · exact ⟨hnothing, nofun⟩
      · refine ⟨hnothing, ?_⟩
        rintro _ ⟨⟩
        rfl
    | ok depth =>
      refine ⟨Run.prints_eval rounds depth e globalScope s.fresh.machine, ?_⟩
      dsimp only
      generalize Run.eval rounds depth e globalScope s.fresh.machine = ended
      cases verdictOf depth ended.2 ended.1 with
      | error => exact nofun
      | ok =>
        rintro _ ⟨⟩
        rfl

/-- **What is written and what is kept.** Whatever was evaluated and however it has ended, the
written text has grown by one line for each value that was printed, and the kept lines are the last
of these, as many as should be kept; none if that number is negative. This holds of each run of a
session by itself: sessions keep the standard number of lines, and what a run reports, be it a
success or a failure, are the last lines that it printed. -/
theorem lines_of_prints :
    (∀ (m m' : Machine) (vs : List Value), m.records.toList = [] → m.Evaluations vs m' →
      m'.written.toText = m.written.toText ++ Value.lines vs ∧
      m'.records.toList = (vs.map Value.text).rtake m.keep.toNat) ∧
    (∀ limit tracing, (start limit tracing).machine.keep = standardKeep) ∧
    ∀ (rounds : Nat) (program : Option Expr) (s : Session), s.machine.keep = standardKeep →
      let vs := s.printed rounds program
      (s.run rounds program).2.machine.keep = standardKeep ∧
      (s.run rounds program).2.machine.written.toText =
        s.machine.written.toText ++ Value.lines vs ∧
      ∀ report, (s.run rounds program).1 = .ok report →
        report.output = (vs.map Value.text).rtake 10000 := by
  refine ⟨fun m m' vs hempty h => ?_, fun _ _ => rfl, fun rounds program s hkeep => ?_⟩
  · exact ⟨h.prints.toText_written, h.prints.toList_records hempty⟩
  · obtain ⟨hprints, hreport⟩ := prints_run rounds program s
    have hstandard : s.fresh.machine.keep.toNat = 10000 := congrArg Int.toNat hkeep
    refine ⟨hprints.keep.trans hkeep, hprints.toText_written, fun report h => ?_⟩
    rw [hreport report h, hprints.toList_records rfl, hstandard]

/-- An evaluation that fails after it has printed two lines, and a nested print after it, of which
three lines are kept; and the report of a run of the first one. -/
theorem lines_of_prints_after_failure :
    let fails : Expr := .binop .add (.print (.literal (.int 1))) (.print (.literal (.bool true)))
    let nested : Expr := .print (.print (.literal (.int 2)))
    let m := Machine.initial 3 false
    let m' := (Run.eval 5 5 nested 0 (Run.eval 5 5 fails 0 m).2).2
    let s := start none false
    m.records.toList = [] ∧ m.Evaluations [.int 1, .bool true, .int 2, .int 2] m' ∧
      m'.written.toText = "1\ntrue\n2\n2\n" ∧
      m'.records.toList = ["true", "2", "2"] ∧
      s.machine.keep = standardKeep ∧
      (s.run 5 (some fails)).2.machine.written.toText = "1\ntrue\n" ∧
      ∃ report, (s.run 5 (some fails)).1 = .ok report ∧ report.output = ["1", "true"] := by
  intro fails nested m m' s
  have hempty : m.records.toList = [] := rfl
  have hm' : m.Evaluations [.int 1, .bool true, .int 2, .int 2] m' :=
    .eval 5 5 nested 0 (.eval 5 5 fails 0 .start)
  have hkeep : s.machine.keep = standardKeep := rfl
  obtain ⟨hwritten, hrecords⟩ := lines_of_prints.1 m m' _ hempty hm'
  obtain ⟨-, hrun, hreport⟩ := lines_of_prints.2.2 5 (some fails) s hkeep
  exact ⟨hempty, hm', hwritten.trans (by decide), hrecords.trans (by decide), hkeep,
    hrun.trans (by decide), _, rfl, (hreport _ rfl).trans (by decide)⟩

end Session

end Treewalk
