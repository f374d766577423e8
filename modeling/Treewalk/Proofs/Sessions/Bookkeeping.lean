import Treewalk.Proofs.Machine.Chains
import Treewalk.Proofs.Semantics.OlderCalls
import Treewalk.Proofs.Sessions.Steps

/-!
# Bookkeeping does not influence evaluation

A machine keeps books about an evaluation: the printed lines that are kept, the trace, the open
calls and the current node. They are for reports and change nothing about the evaluation itself
(`Run.eval_bookkeeping`). In particular, what an earlier program has left in the books does not
reach a later one (`Session.step_of_residue`).

The lines and the trace are only written to, so two machines that differ in them go on to differ in
them alone. The current node is replaced before it can be read, and the open calls stay below those
that the evaluation adds to them.
-/

namespace Treewalk

/-- The machines that are like another one except for the lines that are kept and the trace. -/
inductive Machine.Annotated (m : Machine) : Machine → Prop where
  | mk (records : Records) (keep : Int) (tracing : Bool) (trace : Array Text) :
    Annotated m { m with records := records, keep := keep, tracing := tracing, trace := trace }

namespace Pairing

/-- The pairing of a machine with one that has other notes. -/
def annotated : Pairing where
  toLikeness := .same fun _ => True
  rest := Machine.Annotated
  exhaustedFirst := False
  exhaustedSecond := False
  unfinishedFirst := False

theorem lawful_annotated : annotated.Lawful := by
  refine lawful_sharing ?look ?note ?writeLine ?push ?pop ?set ?alloc
  case note =>
    rintro m _ line ⟨records, keep, tracing, trace⟩
    obtain ⟨trace₁, h₁⟩ := Run.note_apply line m
    obtain ⟨trace₂, h₂⟩ := Run.note_apply line
      { m with records := records, keep := keep, tracing := tracing, trace := trace }
    rw [h₁, h₂]
    exact .mk records keep tracing trace₂
  case writeLine =>
    rintro m _ line ⟨records, keep, tracing, trace⟩
    exact .mk (records.push keep line) keep tracing trace
  case pop =>
    rintro m _ ⟨records, keep, tracing, trace⟩
    exact .mk records keep tracing trace
  case look | push | alloc =>
    rintro m _ _ ⟨records, keep, tracing, trace⟩
    exact .mk records keep tracing trace
  case set =>
    rintro m _ i name v ⟨records, keep, tracing, trace⟩
    exact .mk records keep tracing trace

end Pairing

/-- Notes do not matter to an evaluation. -/
theorem Machine.Annotated.eval {m m' : Machine} (h : m.Annotated m') (rounds depth : Nat) (e : Expr)
    (scope : ScopeId) :
    ∃ outcome m₁ m₁', Run.eval rounds depth e scope m = (outcome, m₁) ∧
      Run.eval rounds depth e scope m' = (outcome, m₁') ∧ m₁.Annotated m₁' := by
  have hstore : m'.store = m.store := by
    cases h
    rfl
  exact Pairing.lawful_annotated.eval_alike hstore h rounds depth e scope

/-- An evaluation from a machine without open calls and without a current node, and the same one
from a machine that has some. -/
theorem Run.eval_of_books (rounds depth : Nat) (e : Expr) (scope : ScopeId) (m : Machine) :
    eval rounds (depth + 1) e scope m =
      ((eval rounds (depth + 1) e scope { m with frames := [], current := .null }).1,
        (eval rounds (depth + 1) e scope { m with frames := [], current := .null }).2.above
          m.frames) :=
  ignoresOlder_eval rounds (depth + 1) e scope { m with frames := [] } m.frames

/-- **Bookkeeping does not influence evaluation.** Two machines that differ in the open calls, the
current node, the lines that are kept and how many these are, and in the trace and whether there is
one, end with the same result, the same store, the same written text and the same current node, and
with the same calls on top of those that were open. -/
theorem Run.eval_bookkeeping (rounds depth : Nat) (e : Expr) (scope : ScopeId) (m : Machine)
    (frames : List Frame) (current : Document) (records : Records) (keep : Int) (tracing : Bool)
    (trace : Array Text) :
    ∃ outcome m₁ m₁' calls,
      eval rounds (depth + 1) e scope m = (outcome, m₁) ∧
      eval rounds (depth + 1) e scope ⟨m.store, frames, current, records, keep, m.written, tracing,
        trace⟩ = (outcome, m₁') ∧
      m₁'.store = m₁.store ∧ m₁'.written = m₁.written ∧ m₁'.current = m₁.current ∧
      m₁.frames = calls ++ m.frames ∧ m₁'.frames = calls ++ frames := by
  have hnotes : Machine.Annotated { m with frames := [], current := .null }
      ⟨m.store, [], .null, records, keep, m.written, tracing, trace⟩ :=
    .mk records keep tracing trace
  obtain ⟨outcome, m₁, m₁', h, h', hends⟩ := hnotes.eval rounds (depth + 1) e scope
  refine ⟨outcome, m₁.above m.frames, m₁'.above frames, m₁.frames, ?_, ?_, ?_⟩
  · rw [eval_of_books, h]
  · rw [eval_of_books, h']
  · cases hends
    exact ⟨rfl, rfl, rfl, rfl, rfl⟩

/-- **What an earlier program has left in the books does not reach a later one.** The step from a
session with the same store and the same limit shows the same, but for the lines that are kept, and
leaves the same store. -/
theorem Session.step_of_residue (rounds : Nat) (program : Option Expr) (s : Session)
    (frames : List Frame) (current : Document) (records : Records) (keep : Int)
    (written : Text.Buffer) (tracing : Bool) (trace : Array Text) :
    let s' : Session :=
      ⟨⟨s.machine.store, frames, current, records, keep, written, tracing, trace⟩, s.limit⟩
    (s'.step rounds program).1.verdict = (s.step rounds program).1.verdict ∧
      (s'.step rounds program).1.written = (s.step rounds program).1.written ∧
      (s'.step rounds program).2.machine.store = (s.step rounds program).2.machine.store := by
  intro s'
  cases program with
  | none => exact ⟨rfl, rfl, rfl⟩
  | some e =>
    have hready : s.ready.Annotated s'.ready := .mk .empty keep tracing trace
    cases hdepth : depthOf s.limit with
    | error refused =>
      rw [step_of_error rounds hdepth, step_of_error (s := s') rounds hdepth]
      exact ⟨rfl, rfl, rfl⟩
    | ok depth =>
      obtain ⟨outcome, m, m', h, h', hends⟩ := hready.eval rounds depth e globalScope
      rw [step_some hdepth h, step_some (s := s') hdepth h', verdict_of_eval, verdict_of_eval]
      cases hends
      exact ⟨rfl, rfl, rfl⟩

end Treewalk
