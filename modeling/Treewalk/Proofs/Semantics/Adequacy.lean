import Treewalk.Proofs.Machine.Monotone
import Treewalk.Proofs.Semantics.Complete
import Treewalk.Proofs.Semantics.Parts
import Treewalk.Proofs.Semantics.Sound

/-!
# Evaluation and the rules agree

The rules derive just the ends that evaluation has (`eval_iff_evaluates`): what it ends with is
derived (`eval_explained`), and what is derived is an end as soon as the bounds suffice
(`evaluates_found`). Since greater bounds keep an answer (`eval_refines`), the log of a derivation
is also what the run did to the machine, whatever bounds the run had (`exists_log_of_done`,
`exists_log_of_failed`).
-/

namespace Treewalk.Run

variable {e : Expr} {scope : ScopeId} {rounds depth : Nat} {m m' : Machine}

/-- A derivation is an end of evaluation. -/
theorem exists_eval {s' : Store} {log : List Event} {r : Ending Value}
    (h : Evaluates e scope m.store log r s') :
    ∃ n, ∀ rounds ≥ n, ∀ depth ≥ n, ∃ outcome m', eval rounds depth e scope m = (outcome, m') ∧
      r.Matches outcome ∧ m'.store = s' ∧ Follows m log m' := by
  obtain ⟨n, h⟩ := (evaluates_found h).eval
  exact ⟨n, fun rounds hr depth hd => h rounds hr depth hd m rfl⟩

/-- A run whose end greater bounds keep does what the log of a derivation says. -/
theorem follows_of_eval {s' : Store} {log : List Event} {r : Ending Value}
    {outcome : Outcome Value} (hlog : Evaluates e scope m.store log r s')
    (h : ∀ rounds' depth', rounds ≤ rounds' → depth ≤ depth' →
      eval rounds' depth' e scope m = (outcome, m')) : Follows m log m' := by
  obtain ⟨n, hn⟩ := exists_eval hlog
  obtain ⟨_, _, heval, -, -, hfollows⟩ :=
    hn (max n rounds) (Nat.le_max_left n rounds) (max n depth) (Nat.le_max_left n depth)
  rw [h _ _ (Nat.le_max_right n rounds) (Nat.le_max_right n depth)] at heval
  cases heval
  exact hfollows

/-- A run that ends with a value is derived, and it does what its log says. -/
theorem exists_log_of_done {v : Value} (h : eval rounds depth e scope m = (.done v, m')) :
    ∃ log, Evaluates e scope m.store log (.value v) m'.store ∧ Follows m log m' := by
  obtain ⟨log, hlog⟩ := (eval_explained rounds depth e scope m).of_done h
  exact ⟨log, hlog, follows_of_eval hlog fun _ _ hr hd =>
    (eval_refines hr hd e scope).eq_of_done h⟩

/-- A run that fails is derived, and it does what its log says. -/
theorem exists_log_of_failed {fault : Fault}
    (h : eval rounds depth e scope m = (.failed fault, m')) :
    ∃ log culprit,
      Evaluates e scope m.store log (.error culprit fault.kind fault.message) m'.store ∧
      Follows m log m' := by
  obtain ⟨log, culprit, hlog⟩ := (eval_explained rounds depth e scope m).of_failed h
  exact ⟨log, culprit, hlog, follows_of_eval hlog fun _ _ hr hd =>
    (eval_refines hr hd e scope).eq_of_failed h⟩

/-- An evaluation that gives a value leaves the calls that it enters. -/
theorem frames_of_done {v : Value} (h : eval rounds depth e scope m = (.done v, m')) :
    m'.frames = m.frames := by
  obtain ⟨log, hlog, hfollows⟩ := exists_log_of_done h
  rw [hfollows.frames]
  exact evaluates_quiet hlog m.frames

/-- **Evaluation and the rules agree.** With bounds that suffice, evaluation gives a value, leaves a
store and has written a text just if the rules derive the value and the store with a log whose
printed lines were added to the text; and it fails with an error of a kind and a text in the same
way. -/
theorem eval_iff_evaluates (e : Expr) (scope : ScopeId) (m : Machine) (s' : Store)
    (written : Text.Buffer) :
    (∀ v, (∃ rounds depth m', eval rounds depth e scope m = (.done v, m') ∧ m'.store = s' ∧
        m'.written = written) ↔
      ∃ log, Evaluates e scope m.store log (.value v) s' ∧
        written = m.written.pushLines (printedLines log)) ∧
    ∀ k t, (∃ rounds depth fault m', eval rounds depth e scope m = (.failed fault, m') ∧
        fault.kind = k ∧ fault.message = t ∧ m'.store = s' ∧ m'.written = written) ↔
      ∃ log culprit, Evaluates e scope m.store log (.error culprit k t) s' ∧
        written = m.written.pushLines (printedLines log) := by
  refine ⟨fun v => ⟨?_, ?_⟩, fun k t => ⟨?_, ?_⟩⟩
  · rintro ⟨rounds, depth, m', heval, rfl, rfl⟩
    obtain ⟨log, hlog, hfollows⟩ := exists_log_of_done heval
    exact ⟨log, hlog, hfollows.written⟩
  · rintro ⟨log, hlog, rfl⟩
    obtain ⟨n, hn⟩ := exists_eval hlog
    obtain ⟨_, m', heval, rfl, hs', hfollows⟩ := hn n (Nat.le_refl n) n (Nat.le_refl n)
    exact ⟨n, n, m', heval, hs', hfollows.written⟩
  · rintro ⟨rounds, depth, fault, m', heval, rfl, rfl, rfl, rfl⟩
    obtain ⟨log, culprit, hlog, hfollows⟩ := exists_log_of_failed heval
    exact ⟨log, culprit, hlog, hfollows.written⟩
  · rintro ⟨log, culprit, hlog, rfl⟩
    obtain ⟨n, hn⟩ := exists_eval hlog
    obtain ⟨_, m', heval, ⟨fault, rfl, hk, ht⟩, hs', hfollows⟩ :=
      hn n (Nat.le_refl n) n (Nat.le_refl n)
    exact ⟨n, n, fault, m', heval, hk, ht, hs', hfollows.written⟩

end Treewalk.Run
