import Mathlib.Data.List.DropRight
import Treewalk.Proofs.Machine.Accounts
import Treewalk.Proofs.Semantics.Log

/-!
# What evaluation prints

Each evaluation of a print expression prints the value that it gives, when it gives it, and nothing
else prints. `Run.printed` collects these values, in the order in which the evaluations end: first
those of the evaluations that an evaluation makes, and then its own.

`Machine.Prints` says what printing does to a machine: each value adds a line to the written text,
and to the lines that are kept, of which the oldest ones are dropped as soon as they are too many.
This is what an evaluation does, however it ends (`Run.prints_eval`), and what a call does
(`Run.prints_callClosure`).
-/

namespace Treewalk

namespace Run

/-- The value of an evaluation that has ended, if it is a completed evaluation of a print
expression. -/
def completedPrint : Expr → Outcome Value → List Value
  | .print _, .done v => [v]
  | _, _ => []

/-- The values of the print expressions whose evaluation was completed, in order of completion. -/
def printed (rounds : Nat) : Nat → Expr → ScopeId → Machine → List Value
  | 0, _, _, _ => []
  | depth + 1, e, scope, m =>
    (visits rounds (depth + 1) e scope m).flatMap (fun v =>
        printed rounds depth v.expr v.scope v.machine) ++
      completedPrint e (eval rounds (depth + 1) e scope m).1

/-- The values that are printed by the run of the body of a call. -/
def printedByCall (rounds depth : Nat) (site : Option Expr) (name : Text) (params : List Text)
    (body : Option Expr) (outer : ScopeId) (args : List Value) (m : Machine) : List Value :=
  ((enter site name params body outer args).after (visitsBlock body) m).flatMap fun v =>
    printed rounds depth v.expr v.scope v.machine

end Run

/-- Adds lines one after another, and drops the surplus ones each time. -/
def Records.pushLines (keep : Int) (r : Records) (lines : List Text) : Records :=
  lines.foldl (fun r line => r.push keep line) r

/-- Whether a machine was left by steps that have printed some values. -/
structure Machine.Prints (m : Machine) (vs : List Value) (m' : Machine) : Prop where
  written : m'.written = m.written.pushLines (vs.map Value.text)
  records : m'.records = m.records.pushLines m.keep (vs.map Value.text)
  keep : m'.keep = m.keep

/-! ## Lines -/

theorem Text.Buffer.toText_pushLines (b : Buffer) (lines : List Text) :
    (b.pushLines lines).toText = b.toText ++ lines.flatMap fun line => line ++ ("\n" : Text) := by
  induction lines generalizing b with
  | nil => simp [pushLines]
  | cons line lines ih =>
    refine (ih _).trans ?_
    simp

/-- The last ones of some elements that come after the last ones of others. -/
theorem rtake_append_rtake {α : Type} (n : Nat) (xs ys : List α) :
    (xs.rtake n ++ ys).rtake n = (xs ++ ys).rtake n := by
  simp [List.rtake_eq_reverse_take_reverse, List.take_append, List.take_take]

/-- **Of all lines the last ones are kept**, and no more than should be. -/
theorem Records.toList_pushLines {keep : Int} {r : Records} {before : List Text}
    (h : r.toList = before.rtake keep.toNat) (lines : List Text) :
    (r.pushLines keep lines).toList = (before ++ lines).rtake keep.toNat := by
  induction lines generalizing r before with
  | nil => rwa [List.append_nil]
  | cons line lines ih =>
    -- A line that was dropped would not be among the last ones later, either.
    have hpush : (r.push keep line).toList = (before ++ [line]).rtake keep.toNat := by
      rw [Records.toList_push, h, ← rtake_append_rtake]
      rfl
    have hlines := ih hpush
    rwa [List.append_assoc] at hlines

namespace Machine.Prints

variable {m m₁ m₂ : Machine} {vs ws : List Value}

theorem refl (m : Machine) : m.Prints [] m := ⟨rfl, rfl, rfl⟩

/-- What is printed later comes behind. -/
theorem trans (h₁ : m.Prints vs m₁) (h₂ : m₁.Prints ws m₂) : m.Prints (vs ++ ws) m₂ where
  written := by
    rw [h₂.written, h₁.written, List.map_append, Text.Buffer.pushLines_append]
  records := by
    rw [h₂.records, h₁.records, h₁.keep, List.map_append, Records.pushLines, Records.pushLines,
      Records.pushLines, List.foldl_append]
  keep := h₂.keep.trans h₁.keep

/-- A machine with the same lines. -/
theorem of_eq (hwritten : m₁.written = m.written) (hrecords : m₁.records = m.records)
    (hkeep : m₁.keep = m.keep) : m.Prints [] m₁ :=
  ⟨hwritten, hrecords, hkeep⟩

/-- A value that was printed. -/
theorem writeLine (m : Machine) (v : Value) : m.Prints [v] (Run.writeLine v.text m).2 :=
  ⟨rfl, rfl, rfl⟩

end Machine.Prints

namespace Run

variable {α β : Type} {x : Run α} {f : Machine → List Visit} {prints : Visit → List Value}

/-- Whether a step prints what the evaluations print that it makes. -/
def Makes (prints : Visit → List Value) (x : Run α) (visits : Machine → List Visit) : Prop :=
  ∀ m : Machine, m.Prints ((visits m).flatMap prints) (x m).2

/-- Whether it is known what an evaluator prints. -/
def PrintedBy (prints : Visit → List Value) (ev : Expr → ScopeId → Run Value) : Prop :=
  ∀ (e : Expr) (scope : ScopeId) (m : Machine), m.Prints (prints ⟨e, scope, m⟩) (ev e scope m).2

/-- Whether a step prints nothing. -/
def Silent (x : Run α) : Prop := ∀ m : Machine, m.Prints [] (x m).2

/-! ## One step after another -/

theorem Makes.bind {y : α → Run β} {g : α → Machine → List Visit} (hx : x.Makes prints f)
    (hy : ∀ a, (y a).Makes prints (g a)) :
    (x >>= y).Makes prints fun m => f m ++ x.after g m := by
  intro m
  have hx := hx m
  rw [bind_apply, List.flatMap_append]
  unfold after
  rcases h : x m with ⟨a | _ | _ | _, m'⟩ <;> rw [h] at hx
  · exact hx.trans (hy a m')
  · exact hx.trans (.refl m')
  · exact hx.trans (.refl m')
  · exact hx.trans (.refl m')

/-! ## Steps that print nothing -/

theorem silent_result (a : α) : (result a).Silent := fun m => .refl m

theorem silent_fail (fault : Fault) : (fail fault : Run α).Silent := fun m => .refl m

theorem silent_look (e : Expr) : (look e).Silent := fun _ => ⟨rfl, rfl, rfl⟩

theorem silent_resolve (scope : ScopeId) (name : Text) : (resolve scope name).Silent :=
  fun m => .refl m

theorem silent_update (scope : ScopeId) (name : Text) (v : Value) : (update scope name v).Silent :=
  fun _ => ⟨rfl, rfl, rfl⟩

theorem silent_newScope (outer : ScopeId) : (newScope outer).Silent := fun _ => ⟨rfl, rfl, rfl⟩

theorem silent_push (call : Frame) : (push call).Silent := fun _ => ⟨rfl, rfl, rfl⟩

theorem silent_pop : pop.Silent := fun _ => ⟨rfl, rfl, rfl⟩

theorem silent_note (line : Unit → Text) : (note line).Silent := by
  intro m
  obtain ⟨trace, h⟩ := note_apply line m
  rw [h]
  exact ⟨rfl, rfl, rfl⟩

theorem silent_declare (scope : ScopeId) (name : Text) (v : Value) :
    (declare scope name v).Silent := by
  intro m
  cases h : m.store.binds scope name with
  | true =>
    rw [declare_of_bound h]
    exact .refl m
  | false =>
    rw [declare_of_unbound h]
    exact ⟨rfl, rfl, rfl⟩

/-- What a step prints is accounted for by the evaluations that it makes. -/
def printing (prints : Visit → List Value) : Account := ⟨fun x f => x.Makes prints f⟩

theorem lawful_printing {ev : Expr → ScopeId → Run Value} (hev : PrintedBy prints ev) :
    (printing prints).Lawful ev where
  visit e scope m := by
    rw [List.flatMap_singleton]
    exact hev e scope m
  bind := Makes.bind
  result := silent_result
  fail := silent_fail
  suspend m := .refl m
  look := silent_look
  note := silent_note
  resolve := silent_resolve
  declare := silent_declare
  update := silent_update
  newScope := silent_newScope
  push := silent_push
  pop := silent_pop

/-! ## Expressions -/

/-- A print expression prints its value after all that its operand prints. -/
theorem prints_eval_print {rounds depth : Nat} (hev : PrintedBy prints (eval rounds depth))
    (a : Expr) (scope : ScopeId) (m : Machine) :
    m.Prints ((visits rounds (depth + 1) (.print a) scope m).flatMap prints ++
      completedPrint (.print a) (eval rounds (depth + 1) (.print a) scope m).1)
      (eval rounds (depth + 1) (.print a) scope m).2 := by
  let m₀ : Machine := { m with current := .node (.print a) }
  have hlook : m.Prints [] m₀ := silent_look (.print a) m
  have hoperand := hlook.trans ((lawful_printing hev).visit a scope m₀)
  have heval : eval rounds (depth + 1) (.print a) scope m =
      (eval rounds depth a scope >>= fun v => writeLine v.text >>= fun _ => result v) m₀ := rfl
  rw [heval, bind_apply]
  rcases h : eval rounds depth a scope m₀ with ⟨v | _ | _ | _, m₁⟩ <;> rw [h] at hoperand
  · exact hoperand.trans (.writeLine m₁ v)
  · exact hoperand.trans (.refl m₁)
  · exact hoperand.trans (.refl m₁)
  · exact hoperand.trans (.refl m₁)

/-- **What evaluation prints**, however it ends. -/
theorem prints_eval (rounds depth : Nat) :
    PrintedBy (fun v => printed rounds depth v.expr v.scope v.machine) (eval rounds depth) := by
  induction depth with
  | zero => exact fun _ _ m => .refl m
  | succ depth hev =>
    intro e scope m
    by_cases he : ∃ a, e = .print a
    · obtain ⟨a, rfl⟩ := he
      exact prints_eval_print hev a scope m
    · have hown : completedPrint e (eval rounds (depth + 1) e scope m).1 = [] := by
        unfold completedPrint
        split
        · exact absurd ⟨_, rfl⟩ he
        · rfl
      have hparts := (lawful_printing hev).eval (fun a ha => he ⟨a, ha⟩) scope m
      show m.Prints (_ ++ completedPrint e _) _
      rw [hown, List.append_nil]
      exact hparts

/-- **What a call prints**, however it ends. -/
theorem prints_callClosure (rounds depth : Nat) (site : Option Expr) (name : Text)
    (params : List Text) (body : Option Expr) (outer : ScopeId) (args : List Value) (m : Machine) :
    m.Prints (printedByCall rounds depth site name params body outer args m)
      (callClosure (eval rounds depth) site name params body outer args m).2 :=
  (lawful_printing (prints_eval rounds depth)).callClosure site name params body outer args m

end Run

end Treewalk
