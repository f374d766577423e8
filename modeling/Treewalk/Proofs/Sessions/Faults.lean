import Treewalk.Proofs.Sessions.Steps
import Treewalk.Proofs.SideBySide.Same
import Treewalk.Proofs.Tree.WellFormed

/-!
# The faults that sessions report

A session that runs plain documents one after another reports no faults but those of evaluation
(`Session.runAll_kinds`). In particular, nothing that is no expression is ever come to: documents
are read as well-formed expressions, the closures that they leave behind have well-formed bodies,
and so all code that later documents can call is well formed, too.
-/

namespace Treewalk

open Document
open Treewalk.Expr (WellFormed)

/-- The kinds of the faults with which evaluations of well-formed expressions end. A malformed tree
is none of them. -/
def evaluationKinds : List FaultKind :=
  [.duplicateVariable, .type, .divisionByZero, .notCallable, .stackExhaustion]

/-- No closure is bound where nothing was run. -/
theorem Store.bodiesAre_initial (Q : Expr → Prop) : Store.initial.BodiesAre Q := by
  intro i scope hscope b hb
  cases i with
  | zero =>
    cases hscope
    cases hb
  | succ i => cases hscope

theorem Likeness.Faults.kind_mem {L : Likeness} {f f' : Fault} (h : L.Faults f f') :
    f.kind ∈ evaluationKinds := by
  cases h <;> simp [Fault.kind, evaluationKinds]

/-- **Evaluation of well-formed code.** If an expression and the bodies of all closures are well
formed, so are the bodies of all closures afterwards; and a fault is one of evaluation. -/
theorem Run.eval_wellFormed {rounds depth : Nat} {e : Expr} (he : e.WellFormed) {scope : ScopeId}
    {m m' : Machine} (hm : m.store.BodiesAre WellFormed) {outcome : Outcome Value}
    (heval : eval rounds depth e scope m = (outcome, m')) :
    (∀ v, outcome = .done v → v.BodyIs WellFormed) ∧
      (∀ fault, outcome = .failed fault → fault.kind ∈ evaluationKinds) ∧
      m'.store.BodiesAre WellFormed := by
  have hr : Pairing.Fits False rounds rounds := .refl rounds
  have hd : Pairing.Fits False depth depth := .refl depth
  have hmirrors := Pairing.mirrors_itself (Expr.hereditary_everywhere Expr.NodeOk) hr hd he scope
  have hends := hmirrors m m ⟨Likeness.stores_same_iff.mpr hm, rfl⟩
  obtain ⟨houtcomes, hstores, -⟩ := hends.outcomes id id id
  rw [heval] at houtcomes hstores
  refine ⟨?_, ?_, Likeness.stores_same_iff.mp hstores⟩
  · rintro v rfl
    cases houtcomes with
    | done hv => exact (Likeness.bodyIs_of_values hv).2
  · rintro fault rfl
    cases houtcomes with
    | failed hf => exact hf.kind_mem

namespace Session

variable {s : Session}

/-- Whether a step has a value, or ends with a fault of the kinds of evaluation, be it reported or
not. Else there was no evaluation, because the limit of the session is refused, or the evaluation
has not ended. -/
def Step.EndsOrdinarily (limit : Option Int) (step : Step) : Prop :=
  match step.verdict with
  | .ok (.success _) => True
  | .ok (.failure kind _) => kind ∈ evaluationKinds
  | .error (.messageTooDeep kind) => kind ∈ evaluationKinds
  | .error breakdown => breakdown = .unfinished ∨ depthOf limit = .error (.inl breakdown)

/-- A step with a well-formed program reports no fault but those of evaluation. -/
theorem step_kinds (rounds : Nat) {program : Option Expr}
    (hprogram : ∀ e, program = some e → e.WellFormed)
    (hs : s.machine.store.BodiesAre WellFormed) :
    (s.step rounds program).1.EndsOrdinarily s.limit ∧ (s.step rounds program).2.limit = s.limit ∧
      (s.step rounds program).2.machine.store.BodiesAre WellFormed := by
  cases program with
  | none =>
    rw [step_none]
    exact ⟨trivial, rfl, hs⟩
  | some e =>
    cases hdepth : depthOf s.limit with
    | error refused =>
      rw [step_of_error rounds hdepth]
      refine ⟨?_, rfl, hs⟩
      rcases depthOf_error hdepth with ⟨breakdown, rfl, hb⟩ | ⟨message, rfl⟩
      · rcases hb with rfl | rfl
        · exact Or.inr hdepth
        · exact Or.inr hdepth
      · show FaultKind.stackExhaustion ∈ evaluationKinds
        decide
    | ok depth =>
      rcases heval : Run.eval rounds depth e globalScope s.ready with ⟨outcome, m⟩
      have hready : s.ready.store.BodiesAre WellFormed := hs
      obtain ⟨-, hfault, hstore⟩ := Run.eval_wellFormed (hprogram e rfl) hready heval
      rw [step_some hdepth heval]
      refine ⟨?_, rfl, hstore⟩
      unfold Step.EndsOrdinarily
      rw [verdict_of_eval]
      cases outcome with
      | done => trivial
      | failed fault =>
        rcases verdictOf_failed depth fault m with ⟨⟨message, hv⟩, -⟩ | ⟨hv, -⟩
        · rw [hv]
          exact hfault fault rfl
        · rw [hv]
          exact hfault fault rfl
      | exhausted =>
        show FaultKind.stackExhaustion ∈ evaluationKinds
        decide
      | unfinished => exact .inl rfl

/-- **Sessions of plain documents report no faults but those of evaluation.** The documents are read
as programs and run one after another in a new session. All closures that they leave behind have
well-formed bodies. -/
theorem runAll_kinds (rounds : Nat) (limit : Option Int) (tracing : Bool) {documents : List Data}
    {programs : List (Option Expr)}
    (h : List.Forall₂
      (fun d program => d.Plain ∧ Tree.decode Tree.depthLimit d = .ok program) documents programs) :
    (∀ step ∈ ((start limit tracing).runAll rounds programs).1, step.EndsOrdinarily limit) ∧
      ((start limit tracing).runAll rounds programs).2.machine.store.BodiesAre WellFormed := by
  suffices hall : ∀ s : Session, s.limit = limit → s.machine.store.BodiesAre WellFormed →
      (∀ step ∈ (s.runAll rounds programs).1, step.EndsOrdinarily limit) ∧
        (s.runAll rounds programs).2.machine.store.BodiesAre WellFormed from
    hall _ rfl (Store.bodiesAre_initial WellFormed)
  intro s hlimit hs
  induction h generalizing s with
  | nil =>
    refine ⟨?_, hs⟩
    rintro step ⟨⟩
  | @cons d program documents programs hd _ ih =>
    have hprogram : ∀ e, program = some e → e.WellFormed := by
      rintro e rfl
      exact Tree.wellFormed_of_decode hd.1 hd.2
    obtain ⟨hends, hkept, hs⟩ := step_kinds rounds hprogram hs
    obtain ⟨hrest, hend⟩ := ih _ (hkept.trans hlimit) hs
    rw [runAll_cons]
    exact ⟨List.forall_mem_cons.mpr ⟨hlimit ▸ hends, hrest⟩, hend⟩

/-- Two documents: a function is called whose condition is a number, and then a number is called. -/
theorem runAll_kinds_two_documents :
    let documents : List Data := [
      record [("tag", text "call"), ("func", record [("tag", text "function"),
        ("body", record [("tag", text "if"), ("cond", int 1), ("then", null)])])],
      record [("tag", text "call"), ("func", int 1), ("args", list [])]]
    let programs : List (Option Expr) := [
      some (.call (.func [] (some (.cond (.literal (.int 1)) none none))) []),
      some (.call (.literal (.int 1)) [])]
    List.Forall₂ (fun d program => d.Plain ∧ Tree.decode Tree.depthLimit d = .ok program)
        documents programs ∧
      ((start none true).runAll 9 programs).1.map Step.kind? =
        [some .type, some .notCallable] ∧
      (∀ step ∈ ((start none true).runAll 9 programs).1, step.EndsOrdinarily none) ∧
      ((start none true).runAll 9 programs).2.machine.store.BodiesAre WellFormed := by
  intro documents programs
  have hplain : ∀ d ∈ documents, d.Plain := by
    simp [documents, Data.Plain, Data.ofDocument, Document.Plain, PlainItems, PlainEntries,
      record]
  have hprograms : List.Forall₂
      (fun d program => d.Plain ∧ Tree.decode Tree.depthLimit d = .ok program)
      documents programs := by
    exact .cons ⟨hplain _ (.head _), rfl⟩ (.cons ⟨hplain _ (.tail _ (.head _)), rfl⟩ .nil)
  exact ⟨hprograms, rfl, runAll_kinds 9 none true hprograms⟩

end Session

end Treewalk
