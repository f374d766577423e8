import Treewalk.Proofs.Regrouping.Eval
import Treewalk.Proofs.Sessions.Steps

/-!
# Sessions with regrouped programs

Two sessions that run the same programs, apart from regrouping, show the same
(`Session.runAll_regrouped`): the same verdicts with the same texts and messages, the same printed
lines and the same written text. Their stores bind the same names, in the same order, to values that
differ by regrouping in the bodies of closures. This holds as long as no step of either session uses
up its depth.

The source of a node does not depend on the grouping, but the depth of the calls that lay it out
does; it is least where chains are nested to the left (`Expr.layoutDepth_leftNested_le`). So a step
may lack the message that it has when chains are nested in another way.
-/

namespace Treewalk

open Likeness (regrouping)

/-- Whether two verdicts read the same, with values that differ by regrouping. -/
inductive Verdict.Alike : Verdict → Verdict → Prop where
  | success {v v' : Option Value} : Option.Rel regrouping.Values v v' →
    v.map Value.text = v'.map Value.text → Alike (.success v) (.success v')
  | failure (kind : FaultKind) (message : Text) :
    Alike (.failure kind message) (.failure kind message)

namespace Session

/-- Whether two steps show the same, with values that differ by regrouping. -/
inductive Step.Alike : Step → Step → Prop where
  | answered {v v' : Verdict} (output : List Text) (written : Text) : v.Alike v' →
    Alike ⟨.ok ⟨v, output⟩, written⟩ ⟨.ok ⟨v', output⟩, written⟩
  | broken (breakdown : Breakdown) (written : Text) :
    Alike ⟨.error breakdown, written⟩ ⟨.error breakdown, written⟩

/-- Whether two sessions go on alike: their scopes bind the same names, in the same order, to values
that differ by regrouping. -/
structure Alike (s s' : Session) : Prop where
  stores : regrouping.Stores s.machine.store s'.machine.store
  keep : s.machine.keep = s'.machine.keep
  tracing : s.machine.tracing = s'.machine.tracing
  trace : s.machine.trace = s'.machine.trace
  limit : s.limit = s'.limit

theorem Alike.refl (s : Session) : s.Alike s where
  stores := Likeness.stores_self
    (s.machine.store.bodiesAre_of_forall Expr.equivalence_regrouped.refl)
  keep := rfl
  tracing := rfl
  trace := rfl
  limit := rfl

variable {s s' : Session} {m m' : Machine}

/-- Steps of sessions that go on alike begin alike. -/
theorem Alike.ready (h : s.Alike s') : Pairing.regrouping.Machines s.ready s'.ready := by
  refine ⟨h.stores, ?_⟩
  rw [ready_eq, ready_eq, h.keep, h.tracing, h.trace]
  exact .mk s'.machine.store .nil (.same _)

/-- Sessions go on alike after evaluations that mirror each other. -/
theorem alike_of_machines (h : Pairing.regrouping.Machines m m') (limit : Option Int) :
    Alike ⟨{ m with written := .empty }, limit⟩ ⟨{ m' with written := .empty }, limit⟩ := by
  obtain ⟨hstores, ⟨store, -, -⟩⟩ := h
  exact ⟨hstores, rfl, rfl, rfl, rfl⟩

/-- What was printed is the same. -/
theorem lines_eq (h : Pairing.regrouping.Machines m m') :
    m.written = m'.written ∧ m.records = m'.records := by
  obtain ⟨-, ⟨store, -, -⟩⟩ := h
  exact ⟨rfl, rfl⟩

/-! ## Messages -/

theorem showFrame_eq {c c' : Frame} (h : regrouping.Frames c c') : showFrame c = showFrame c' := by
  have hargs : c.args.map Value.text = c'.args.map Value.text :=
    map_eq_of_forall₂ h.args fun _ _ hv => hv.text_eq
  unfold showFrame
  rw [h.name, hargs]

theorem showCalls_eq {cs cs' : List Frame} (h : List.Forall₂ regrouping.Frames cs cs') :
    showCalls cs = showCalls cs' := by
  have hempty : cs.isEmpty = cs'.isEmpty := by
    cases h <;> rfl
  have hall : (cs.reverse.map fun c => "(" ++ showFrame c ++ ")") =
      cs'.reverse.map fun c => Text.ofString "(" ++ showFrame c ++ ")" :=
    map_eq_of_forall₂ (List.rel_reverse h) fun _ _ hc => by rw [showFrame_eq hc]
  unfold showCalls
  dsimp only
  rw [hempty, hall]

/-- Faults that correspond are explained in the same words, if both nodes can be laid out. -/
theorem explain_eq {depth : Nat} {fault fault' : Fault} (hfault : regrouping.Faults fault fault')
    (hm : m.Regrouped m') (hfits : callsAroundMessage + m.current.layoutDepth ≤ depth)
    (hfits' : callsAroundMessage + m'.current.layoutDepth ≤ depth) :
    explain depth fault m = explain depth fault' m' := by
  rw [explain, explain, if_pos hfits, if_pos hfits']
  obtain ⟨store, frames, current, records, keep, written, tracing, trace⟩ := m
  obtain ⟨store', hframes, hcurrent⟩ := hm
  dsimp only at hframes hcurrent ⊢
  rw [hfault.kind_eq, hfault.message_eq, showCalls_eq hframes]
  cases hcurrent with
  | same => rfl
  | node he =>
    dsimp only [Document.layout]
    rw [Expr.Regrouped.source_eq he]

/-- Evaluations that fail alike make steps that agree. -/
theorem agrees_of_failed {depth : Nat} {fault fault' : Fault}
    (hfault : regrouping.Faults fault fault') (hm : Pairing.regrouping.Machines m m') :
    Step.Agrees Step.Alike
      ⟨(verdictOf depth m (.failed fault)).map fun v => ⟨v, m.records.toList⟩, m.written.toText⟩
      ⟨(verdictOf depth m' (.failed fault')).map fun v => ⟨v, m'.records.toList⟩,
        m'.written.toText⟩ := by
  obtain ⟨hwritten, hrecords⟩ := lines_eq hm
  refine ⟨?_, congrArg Text.Buffer.toText hwritten, fun hfirst hsecond => ?_⟩
  · rw [fault?_of_failed, fault?_of_failed, hfault.kind_eq]
  · rw [Step.unexplained?, verdict_of_eval] at hfirst hsecond
    rcases verdictOf_failed depth fault m with ⟨⟨message, hv⟩, hfits⟩ | ⟨hv, -⟩
    · rcases verdictOf_failed depth fault' m' with ⟨⟨message', hv'⟩, hfits'⟩ | ⟨hv', -⟩
      · have hsame : verdictOf depth m (.failed fault) = verdictOf depth m' (.failed fault') := by
          rw [verdictOf, verdictOf, explain_eq hfault hm.rest hfits hfits', hfault.kind_eq]
        rw [← hsame, hv, hwritten, hrecords]
        exact .answered _ _ (.failure _ _)
      · rw [hv'] at hsecond
        cases hsecond
    · rw [hv] at hfirst
      cases hfirst

/-! ## Steps -/

variable {program program' : Option Expr}

/-- **A step with a regrouped program shows the same**, unless one of the two uses up its depth or
cannot lay out the message of its fault. -/
theorem step_regrouped (rounds : Nat) (h : s.Alike s')
    (hprogram : Option.Rel Expr.Regrouped program program')
    (hfirst : (s.step rounds program).1.kind? ≠ some .stackExhaustion)
    (hsecond : (s'.step rounds program').1.kind? ≠ some .stackExhaustion) :
    (s.step rounds program).1.Agrees Step.Alike (s'.step rounds program').1 ∧
      (s.step rounds program).2.Alike (s'.step rounds program').2 := by
  cases hprogram with
  | none =>
    rw [step_none, step_none, h.limit]
    exact ⟨⟨rfl, rfl, fun _ _ => .answered _ _ (.success .none rfl)⟩,
      alike_of_machines h.ready s'.limit⟩
  | @some e e' he =>
    cases hdepth : depthOf s.limit with
    | error refused =>
      have hdepth' : depthOf s'.limit = .error refused := h.limit ▸ hdepth
      rw [step_of_error rounds hdepth] at hfirst ⊢
      rw [step_of_error rounds hdepth', h.limit]
      rcases depthOf_error hdepth with ⟨breakdown, rfl, -⟩ | ⟨message, rfl⟩
      · exact ⟨⟨rfl, rfl, fun _ _ => .broken _ _⟩, alike_of_machines h.ready s'.limit⟩
      · exact absurd rfl hfirst
    | ok depth =>
      have hdepth' : depthOf s'.limit = .ok depth := h.limit ▸ hdepth
      have hends := Pairing.mirrors_regrouped rounds depth depth e e' globalScope globalScope he rfl
        s.ready s'.ready h.ready
      obtain ⟨outcome, m, hx⟩ : ∃ outcome m,
        Run.eval rounds depth e globalScope s.ready = (outcome, m) := ⟨_, _, rfl⟩
      obtain ⟨outcome', m', hy⟩ : ∃ outcome m,
        Run.eval rounds depth e' globalScope s'.ready = (outcome, m) := ⟨_, _, rfl⟩
      rw [hx, hy] at hends
      rw [step_some hdepth hx] at hfirst ⊢
      rw [step_some hdepth' hy] at hsecond ⊢
      rw [h.limit]
      cases hends with
      | done hv hm =>
        refine ⟨?_, alike_of_machines hm s'.limit⟩
        obtain ⟨hwritten, hrecords⟩ := lines_eq hm
        rw [hwritten, hrecords]
        refine ⟨rfl, rfl, fun _ _ => .answered _ _ (.success (.some hv) ?_)⟩
        rw [Option.map_some, Option.map_some, hv.text_eq]
      | failed hf hm => exact ⟨agrees_of_failed hf hm, alike_of_machines hm s'.limit⟩
      | unfinished hm =>
        refine ⟨?_, alike_of_machines hm s'.limit⟩
        obtain ⟨hwritten, -⟩ := lines_eq hm
        rw [hwritten]
        exact ⟨rfl, rfl, fun _ _ => .broken _ _⟩
      | exhausted | exhaustedFirst => exact absurd rfl hfirst
      | exhaustedSecond => exact absurd rfl hsecond
      | unfinishedFirst h => exact h.elim

/-- **Sessions with regrouped programs show the same**, step by step, and go on alike. Unless a step
uses up its depth, regrouping changes no fault and nothing that is printed; and the scopes bind the
same names, in the same order, to values that differ by regrouping. It changes no verdict and no
message, either, where both programs have one: a node may be nested too deeply for a message in one
way and not in another. -/
theorem runAll_regrouped (rounds : Nat) (s : Session) {programs programs' : List (Option Expr)}
    (h : List.Forall₂ (Option.Rel Expr.Regrouped) programs programs')
    (hfirst : ∀ step ∈ (s.runAll rounds programs).1, step.kind? ≠ some .stackExhaustion)
    (hsecond : ∀ step ∈ (s.runAll rounds programs').1, step.kind? ≠ some .stackExhaustion) :
    List.Forall₂ (Step.Agrees Step.Alike) (s.runAll rounds programs).1
        (s.runAll rounds programs').1 ∧
      (s.runAll rounds programs).2.Alike (s.runAll rounds programs').2 := by
  suffices hall : ∀ s', s.Alike s' →
      (∀ step ∈ (s'.runAll rounds programs').1, step.kind? ≠ some .stackExhaustion) →
      List.Forall₂ (Step.Agrees Step.Alike) (s.runAll rounds programs).1
          (s'.runAll rounds programs').1 ∧
        (s.runAll rounds programs).2.Alike (s'.runAll rounds programs').2 from
    hall s (.refl s) hsecond
  clear hsecond
  induction h generalizing s with
  | nil => exact fun s' hs _ => ⟨.nil, hs⟩
  | cons hprogram _ ih =>
    intro s' hs hsecond
    rw [runAll_cons] at hfirst hsecond ⊢
    rw [runAll_cons]
    obtain ⟨hstep, hfirst⟩ := List.forall_mem_cons.mp hfirst
    obtain ⟨hstep', hsecond⟩ := List.forall_mem_cons.mp hsecond
    obtain ⟨halike, hs⟩ := step_regrouped rounds hs hprogram hstep hstep'
    obtain ⟨hsteps, hsessions⟩ := ih _ hfirst _ hs hsecond
    exact ⟨.cons halike hsteps, hsessions⟩

/-- A function that is never called is an operand of an operation that fails. Its body is nested
to the left, so that there is a message, and to the right, so that there is none. The sessions go
on. -/
theorem runAll_regrouped_body :
    let s := Session.start (some 20) false
    let one : Expr := .literal (.int 1)
    let fails (body : Expr) : Expr := .binop .add (.literal .null) (.func [] (some body))
    let programs : List (Option Expr) :=
      [some (fails (.seq (.seq (.print one) one) one)), some one]
    let programs' : List (Option Expr) :=
      [some (fails (.seq (.print one) (.seq one one))), some one]
    (s.runAll 0 programs).1.map Step.kind? = [some .type, none] ∧
      (s.runAll 0 programs').1.map Step.kind? = [none, none] ∧
      (s.runAll 0 programs').1.map Step.unexplained? = [some .type, none] ∧
      List.Forall₂ (Option.Rel Expr.Regrouped) programs programs' ∧
      (∀ step ∈ (s.runAll 0 programs).1, step.kind? ≠ some .stackExhaustion) ∧
      (∀ step ∈ (s.runAll 0 programs').1, step.kind? ≠ some .stackExhaustion) ∧
      List.Forall₂ (Step.Agrees Step.Alike) (s.runAll 0 programs).1 (s.runAll 0 programs').1 ∧
      (s.runAll 0 programs).2.Alike (s.runAll 0 programs').2 := by
  intro s one fails programs programs'
  have hsame : Expr.Regrouped one one := Expr.equivalence_regrouped.refl one
  have hbody : Expr.Regroup (.seq (.seq (.print one) one) one)
      (.seq (.print one) (.seq one one)) :=
    .assoc (.print one) one one
  have hprograms : List.Forall₂ (Option.Rel Expr.Regrouped) programs programs' :=
    .cons (.some (.rel _ _ (.right (.body hbody)))) (.cons (.some hsame) .nil)
  have hkinds : (s.runAll 0 programs).1.map Step.kind? = [some .type, none] := rfl
  have hkinds' : (s.runAll 0 programs').1.map Step.kind? = [none, none] := rfl
  have hnone : ∀ kind ∈ [some FaultKind.type, none], kind ≠ some .stackExhaustion := by
    decide
  have hnone' : ∀ kind ∈ [(none : Option FaultKind), none], kind ≠ some .stackExhaustion := by
    decide
  have hfirst := List.forall_mem_map.mp (hkinds ▸ hnone)
  have hsecond := List.forall_mem_map.mp (hkinds' ▸ hnone')
  exact ⟨hkinds, hkinds', rfl, hprograms, hfirst, hsecond,
    runAll_regrouped 0 s hprograms hfirst hsecond⟩

end Session

end Treewalk
