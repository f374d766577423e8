import Treewalk.Proofs.Machine.Chains
import Treewalk.Proofs.Semantics.Adequacy
import Treewalk.Proofs.Sessions.Steps

/-!
# A program and its statements

Running a chain of expressions as one program is the same as running them as programs of their own,
one after another up to the first one that does not succeed (`Session.batch_eq_steps`), unless the
chain uses up its depth.

Two things differ meanwhile. In the batch, what earlier expressions have written and printed is
still there: `Machine.Prefixed` says that this is all. And each step begins without calls and
without a current node. The batch has no calls there, either, because evaluations that give a value
leave the calls that they enter; and the current node does not matter, because each evaluation
begins with taking up its own.
-/

namespace Treewalk

/-- The machines that are like another one in which a text was written before. The lines that are
kept may be others. -/
inductive Machine.Prefixed (before : Text) (m : Machine) : Machine → Prop where
  | mk (written : Text.Buffer) (records : Records) : written.toText = before ++ m.written.toText →
    Prefixed before m { m with written := written, records := records }

namespace Pairing

/-- The pairing of a machine with one that continues another text. -/
def continuing (before : Text) : Pairing where
  toLikeness := .same fun _ => True
  rest m m' := m'.Prefixed before m
  exhaustedFirst := False
  exhaustedSecond := False
  unfinishedFirst := False

variable {before : Text}

theorem lawful_continuing : (continuing before).Lawful := by
  refine lawful_sharing ?look ?note ?writeLine ?push ?pop ?set ?alloc
  case note =>
    rintro _ m line ⟨written, records, hw⟩
    unfold Run.note Run.change
    dsimp only
    split
    · exact .mk written records hw
    · exact .mk written records hw
  case writeLine =>
    rintro _ m line ⟨written, records, hw⟩
    refine .mk _ _ ?_
    simp [Run.writeLine, Run.change, hw]
  case pop =>
    rintro _ m ⟨written, records, hw⟩
    exact .mk written records hw
  case look | push | alloc =>
    rintro _ m _ ⟨written, records, hw⟩
    exact .mk written records hw
  case set =>
    rintro _ m i name v ⟨written, records, hw⟩
    exact .mk written records hw

end Pairing

/-- What was written before does not matter to an evaluation. -/
theorem Machine.Prefixed.eval {before : Text} {m m' : Machine} (h : m.Prefixed before m')
    (rounds depth : Nat) (e : Expr) (scope : ScopeId) :
    ∃ outcome m₁ m₁', Run.eval rounds depth e scope m = (outcome, m₁) ∧
      Run.eval rounds depth e scope m' = (outcome, m₁') ∧ m₁.Prefixed before m₁' := by
  have hlawful : (Pairing.sharing fun m m' => m'.Prefixed before m).Lawful :=
    Pairing.lawful_continuing
  have hstore : m.store = m'.store := by
    cases h
    rfl
  obtain ⟨outcome, m₁', m₁, heval', heval, hends⟩ :=
    hlawful.eval_alike hstore h rounds depth e scope
  exact ⟨outcome, m₁, m₁', heval, heval', hends⟩

namespace Session

variable {rounds depth : Nat} {s : Session} {m : Machine}

/-- A step in a batch that has come to a machine. -/
theorem step_in_batch (hdepth : depthOf s.limit = .ok depth)
    (h : s.ready.Prefixed m.written.toText { m with current := .null }) (e : Expr) :
    ∃ outcome m', Run.eval rounds depth e globalScope m = (outcome, m') ∧
      (s.step rounds (some e)).1.verdict = verdictOf depth m' outcome ∧
      m'.written.toText = m.written.toText ++ (s.step rounds (some e)).1.written ∧
      (s.step rounds (some e)).2.limit = s.limit ∧
      ∃ records, { m' with written := .empty } =
        { (s.step rounds (some e)).2.machine with records := records } := by
  obtain ⟨inner, rfl⟩ : ∃ inner, depth = inner + 1 := by
    have hstart := lt_of_depthOf hdepth
    unfold hopelessLimit at hstart
    exact ⟨depth - 1, by omega⟩
  obtain ⟨outcome, m₁, m', hstep, hbatch, hm⟩ := h.eval rounds (inner + 1) e globalScope
  rw [Run.eval_succ_current] at hbatch
  refine ⟨outcome, m', hbatch, ?_⟩
  rw [step_some hdepth hstep, verdict_of_eval]
  obtain ⟨written, records, hw⟩ := hm
  exact ⟨rfl, hw, rfl, records, rfl⟩

theorem verdictOf_succeeds {outcome : Outcome Value} {step : Step}
    (h : step.verdict = verdictOf depth m outcome) : step.succeeds ↔ ∃ v, outcome = .done v := by
  unfold Step.succeeds
  rw [h]
  cases outcome with
  | failed fault =>
    rcases verdictOf_failed depth fault m with ⟨⟨message, hv⟩, -⟩ | ⟨hv, -⟩ <;> simp [hv]
  | done | exhausted | unfinished => simp [verdictOf]

/-- The next step begins like the batch goes on, which has left all calls. -/
theorem ready_prefixed {records : Records} (hframes : m.frames = [])
    (h : { m with written := .empty } = { s.machine with records := records }) :
    s.ready.Prefixed m.written.toText { m with current := .null } := by
  have hready := congrArg (fun m' => Machine.mk m'.store [] .null m.records m'.keep m.written
    m'.tracing m'.trace) h
  show s.ready.Prefixed _ ⟨m.store, m.frames, .null, m.records, m.keep, m.written, _, _⟩
  rw [hframes]
  refine Eq.subst hready.symm (Machine.Prefixed.mk m.written m.records ?_)
  exact (List.append_nil _).symm

/-- The steps for the expressions of a batch, from where the batch has come to. -/
theorem steps_in_batch (rounds : Nat) (e : Expr) (es : List Expr)
    (hdepth : depthOf s.limit = .ok depth) (hframes : m.frames = [])
    (h : s.ready.Prefixed m.written.toText { m with current := .null }) (last : Value) :
    ∃ outcome m',
      Run.evalStatements (Run.eval rounds depth) globalScope last (e :: es) m = (outcome, m') ∧
      (∀ step, (s.runUntilFailure rounds (e :: es)).1.getLast? = some step →
        step.verdict = verdictOf depth m' outcome) ∧
      m'.written.toText = m.written.toText ++
        ((s.runUntilFailure rounds (e :: es)).1.map Step.written).flatten ∧
      (s.runUntilFailure rounds (e :: es)).2.limit = s.limit ∧
      ∃ records, { m' with written := .empty } =
        { (s.runUntilFailure rounds (e :: es)).2.machine with records := records } := by
  induction es generalizing e s m last with
  | nil =>
    obtain ⟨outcome, m', hbatch, hverdict, hwritten, hlimit, hm⟩ := step_in_batch hdepth h e
    refine ⟨outcome, m', ?_⟩
    rw [Run.evalStatements_single, runUntilFailure_single]
    refine ⟨hbatch, ?_, ?_, hlimit, hm⟩
    · rintro _ ⟨⟩
      exact hverdict
    · simpa using hwritten
  | cons e' es ih =>
    obtain ⟨outcome, m₁, hbatch, hverdict, hwritten, hlimit, hm⟩ := step_in_batch hdepth h e
    by_cases hs : (s.step rounds (some e)).1.succeeds
    · obtain ⟨v, rfl⟩ := (verdictOf_succeeds hverdict).mp hs
      have hframes₁ : m₁.frames = [] := (Run.frames_of_done hbatch).trans hframes
      obtain ⟨records, hm⟩ := hm
      obtain ⟨outcome, m', hrest, hlast, hwritten', hlimit', hm'⟩ :=
        ih e' (hlimit ▸ hdepth) hframes₁ (ready_prefixed hframes₁ hm) v
      rw [runUntilFailure_of_succeeds hs]
      refine ⟨outcome, m', ?_, ?_, ?_, hlimit'.trans hlimit, hm'⟩
      · rw [Run.evalStatements, Run.bind_apply, hbatch]
        exact hrest
      · intro step hstep
        obtain ⟨earlier, final, heq, -, -⟩ :=
          exists_last_step rounds e' es (s.step rounds (some e)).2
        refine hlast step ?_
        rw [heq, ← List.cons_append, List.getLast?_concat] at hstep
        rw [heq, List.getLast?_concat]
        exact hstep
      · rw [hwritten', hwritten, List.map_cons, List.flatten_cons, List.append_assoc]
    · refine ⟨outcome, m₁, ?_⟩
      rw [runUntilFailure_of_fails hs]
      refine ⟨?_, ?_, ?_, hlimit, hm⟩
      · rw [Run.evalStatements, Run.bind_apply, hbatch]
        cases outcome with
        | done v => exact absurd ((verdictOf_succeeds hverdict).mpr ⟨v, rfl⟩) hs
        | failed | exhausted | unfinished => rfl
      · rintro _ ⟨⟩
        exact hverdict
      · simpa using hwritten

/-- **A batch and its steps agree.** Unless the batch uses up its depth, it succeeds just if all its
expressions succeed one after another; the verdict is that of the last step that is made, and the
texts that the steps write make up the text that the batch writes. The sessions are the same
afterwards, but for the lines that are kept. -/
theorem batch_eq_steps (rounds : Nat) (e : Expr) (es : List Expr) (s : Session)
    (h : (s.step rounds (Expr.ofStatements? (e :: es))).1.kind? ≠ some .stackExhaustion) :
    ∃ earlier last,
      (s.runUntilFailure rounds (e :: es)).1 = earlier ++ [last] ∧
      (∀ step ∈ earlier, step.succeeds) ∧ (last.succeeds → earlier.length = es.length) ∧
      (s.step rounds (Expr.ofStatements? (e :: es))).1.verdict = last.verdict ∧
      (s.step rounds (Expr.ofStatements? (e :: es))).1.written =
        ((earlier ++ [last]).map Step.written).flatten ∧
      ∃ records, (s.step rounds (Expr.ofStatements? (e :: es))).2 =
        ⟨{ (s.runUntilFailure rounds (e :: es)).2.machine with records := records }, s.limit⟩ := by
  obtain ⟨earlier, last, heq, hearlier, hlast⟩ := exists_last_step rounds e es s
  have hfinal : (s.runUntilFailure rounds (e :: es)).1.getLast? = some last := by
    rw [heq, List.getLast?_concat]
  refine ⟨earlier, last, heq, hearlier, hlast, ?_⟩
  obtain ⟨chain, hchain⟩ : ∃ chain, Expr.ofStatements? (e :: es) = some chain := ⟨_, rfl⟩
  rw [hchain] at h ⊢
  rw [← heq]
  cases hdepth : depthOf s.limit with
  | error refused =>
    have hbatch := step_of_error rounds hdepth chain
    have hstep := step_of_error rounds hdepth e
    rw [hbatch] at h ⊢
    rcases depthOf_error hdepth with ⟨breakdown, rfl, -⟩ | ⟨message, rfl⟩
    · have hfails : ¬(s.step rounds (some e)).1.succeeds := by
        rw [hstep]
        exact Bool.false_ne_true
      rw [runUntilFailure_of_fails hfails, hstep] at hfinal ⊢
      cases hfinal
      exact ⟨rfl, rfl, s.ready.records, rfl⟩
    · exact absurd rfl h
  | ok depth =>
    have hready : s.ready.Prefixed s.ready.written.toText { s.ready with current := .null } :=
      .mk .empty .empty rfl
    obtain ⟨outcome, m', hsteps, hverdict, hwritten, hlimit, hm⟩ :=
      steps_in_batch rounds e es hdepth rfl hready .null
    have hbatch : Run.eval rounds depth chain globalScope s.ready = (outcome, m') := by
      rcases Run.eval_deepens_statements hchain .null s.ready with hexhausted | hdeep
      · refine absurd ?_ h
        obtain ⟨m₁, hm₁⟩ :
            ∃ m₁, Run.eval rounds depth chain globalScope s.ready = (.exhausted, m₁) :=
          ⟨_, Prod.ext hexhausted rfl⟩
        rw [step_some hdepth hm₁]
        rfl
      · rw [hdeep, hsteps]
    rw [step_some hdepth hbatch, verdict_of_eval, hverdict last hfinal, hwritten]
    obtain ⟨records, hm⟩ := hm
    exact ⟨rfl, rfl, records, by rw [hm]⟩

/-- A division by zero after a call and a printed line, and before an expression that is not come
to. -/
theorem batch_eq_steps_division_by_zero :
    let s := Session.start (some 20) false
    let six : Expr := .literal (.int 6)
    let e : Expr := .call (.func ["x"] none) [six]
    let es : List Expr := [.print six, .binop .div six (.literal (.int 0)), .print six]
    (s.step 0 (Expr.ofStatements? (e :: es))).1.kind? = some .divisionByZero ∧
      (s.runUntilFailure 0 (e :: es)).1.length = 3 ∧
      (s.runUntilFailure 0 (e :: es)).1.map Step.written = [[], "6\n", []] ∧
      (s.step 0 (Expr.ofStatements? (e :: es))).1.kind? ≠ some .stackExhaustion ∧
      ∃ earlier last,
        (s.runUntilFailure 0 (e :: es)).1 = earlier ++ [last] ∧
        (∀ step ∈ earlier, step.succeeds) ∧ (last.succeeds → earlier.length = es.length) ∧
        (s.step 0 (Expr.ofStatements? (e :: es))).1.verdict = last.verdict ∧
        (s.step 0 (Expr.ofStatements? (e :: es))).1.written =
          ((earlier ++ [last]).map Step.written).flatten ∧
        ∃ records, (s.step 0 (Expr.ofStatements? (e :: es))).2 =
          ⟨{ (s.runUntilFailure 0 (e :: es)).2.machine with records := records }, s.limit⟩ := by
  intro s six e es
  have hkind : (s.step 0 (Expr.ofStatements? (e :: es))).1.kind? = some .divisionByZero := rfl
  have hne : (s.step 0 (Expr.ofStatements? (e :: es))).1.kind? ≠ some .stackExhaustion := by
    rw [hkind]
    decide
  exact ⟨hkind, rfl, rfl, hne, batch_eq_steps 0 e es s hne⟩

end Session

end Treewalk
