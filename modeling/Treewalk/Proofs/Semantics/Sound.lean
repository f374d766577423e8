import Treewalk.Proofs.Machine.Ends
import Treewalk.Proofs.Semantics.Rules

/-!
# Evaluation follows the rules

However an evaluation ends, unless it is cut off, the rules derive that end (`eval_explained`). The
induction is on the depth. A chain is walked along its spine, where the rules take `seq` apart
(`evalStatements_explained`), and a loop is an induction on the rounds (`evalLoop_explained`).
-/

namespace Treewalk.Run

variable {α β : Type}

/-- Whether the end of a step in a machine is one that a relation has, for some log. -/
def Explained (R : List Event → Ending α → Store → Prop) (x : Run α) (m : Machine) : Prop :=
  x.Ends m (fun a m' => ∃ log, R log (.value a) m'.store)
    (fun fault m' => ∃ log culprit, R log (.error culprit fault.kind fault.message) m'.store)
    fun _ => True

section

variable {R : List Event → Ending α → Store → Prop} {R' : List Event → Ending β → Store → Prop}
  {x : Run α} {f : α → Run β} {m m' : Machine} {log : List Event}

theorem Explained.done {a : α} (hx : x m = (.done a, m')) (h : R log (.value a) m'.store) :
    Explained R x m := by
  unfold Explained Ends
  rw [hx]
  exact ⟨log, h⟩

theorem Explained.failed {fault : Fault} {culprit : Expr} (hx : x m = (.failed fault, m'))
    (h : R log (.error culprit fault.kind fault.message) m'.store) : Explained R x m := by
  unfold Explained Ends
  rw [hx]
  exact ⟨log, culprit, h⟩

/-- A relation that has the ends of another one, with logs of its own. -/
theorem Explained.imp {Q : List Event → Ending α → Store → Prop} (h : Explained R x m)
    (hR : ∀ log r s, R log r s → ∃ log', Q log' r s) : Explained Q x m := by
  refine Ends.imp h ?_ ?_ fun _ _ => trivial
  · rintro a m' ⟨log, ha⟩
    exact hR log _ _ ha
  · rintro fault m' ⟨log, culprit, hf⟩
    obtain ⟨log', hf'⟩ := hR log _ _ hf
    exact ⟨log', culprit, hf'⟩

/-- One step after another, where the relation has the errors of the first one. -/
theorem Explained.bind (h : Explained R x m)
    (herror : ∀ log culprit k t s, R log (.error culprit k t) s →
      ∃ log', R' log' (.error culprit k t) s)
    (hvalue : ∀ log a m', R log (.value a) m'.store → Explained R' (f a) m') :
    Explained R' (x >>= f) m := by
  have hx : x.Ends m (fun a m' => ∃ log, R log (.value a) m'.store)
      (fun fault m' => ∃ log culprit, R' log (.error culprit fault.kind fault.message) m'.store)
      fun _ => True := by
    refine Ends.imp h (fun _ _ h => h) ?_ fun _ h => h
    rintro fault m' ⟨log, culprit, hf⟩
    obtain ⟨log', hf'⟩ := herror _ _ _ _ _ hf
    exact ⟨log', culprit, hf'⟩
  exact hx.bind fun a m' ⟨log, ha⟩ => hvalue log a m' ha

end

/-! ## Steps without evaluation -/

/-- Parameters are bound as the rules say. -/
theorem bindParams_ends (scope : ScopeId) (ps : List Text) (vs : List Value) (m : Machine) :
    (bindParams scope ps vs).Ends m (fun _ m' => Binds scope ps vs m.store none m'.store)
      (fun fault m' => ∃ p, fault = .duplicateVariable p ∧
        Binds scope ps vs m.store (some p) m'.store)
      fun _ => False := by
  induction ps generalizing vs m with
  | nil => exact Binds.nil
  | cons p ps ih =>
    rw [bindParams_cons]
    cases h : m.store.binds scope p with
    | true => exact Ends.stop (declare_of_bound h _) ⟨p, rfl, .duplicate h⟩
    | false =>
      refine Ends.step (declare_of_unbound h _) ((ih _ _).imp ?_ ?_ fun _ h => h)
      · exact fun _ _ hps => .cons h hps
      · rintro fault m' ⟨q, hq, hps⟩
        exact ⟨q, hq, .cons h hps⟩

/-- The value of two operands is computed as the rules say. -/
theorem combine_explained {op : Op} {l r : Expr} {scope : ScopeId} {s : Store}
    {log₁ log₂ : List Event} {s₁ : Store} {v w : Value} {m : Machine}
    (hl : Evaluates l scope s log₁ (.value v) s₁)
    (hr : Evaluates r scope s₁ log₂ (.value w) m.store) :
    Explained (Evaluates (.binop op l r) scope s) (combine op v w) m := by
  by_cases hints : ∃ a b, v = .int a ∧ w = .int b
  · obtain ⟨a, b, rfl, rfl⟩ := hints
    cases hc : op.compute a b with
    | some u => exact .done (by rw [combine, hc]; rfl) (.binop hl hr (Op.computes_iff.mpr hc))
    | none =>
      obtain ⟨hop, rfl⟩ := (Op.compute_eq_none_iff op a b).mp hc
      exact .failed (by rw [combine_of_zero hop]; rfl) (.binopZero hl hr hop)
  · have hkinds : ∀ a b, ¬(v = .int a ∧ w = .int b) := fun a b h => hints ⟨a, b, h⟩
    exact .failed (by rw [combine_of_kinds hkinds]; rfl) (.binopKinds hl hr hkinds)

/-! ## Parts of evaluation -/

section

variable {ev : Expr → ScopeId → Run Value}
  (hev : ∀ e scope m, Explained (Evaluates e scope m.store) (ev e scope) m)

include hev

theorem evalBlock_explained (b : Option Expr) (scope : ScopeId) (m : Machine) :
    Explained (EvaluatesBlock b scope m.store) (evalBlock ev b scope) m := by
  cases b with
  | none => exact .done rfl .none
  | some body => exact (hev body scope m).imp fun log r s h => ⟨log, .some h⟩

/-- The statements of a chain evaluate as the rules say for the chain. -/
theorem evalStatements_explained (e : Expr) (scope : ScopeId) (last : Value) (m : Machine) :
    Explained (Evaluates e scope m.store) (evalStatements ev scope last e.statements) m := by
  induction e using Expr.chainRec with
  | single e h =>
    rw [h, evalStatements_single]
    exact hev e scope m
  | seq first second ih =>
    -- The last statement is evaluated after the chain of the ones before it, as `seq` says.
    rw [Expr.statements_seq, evalStatements_append]
    refine ih.bind (fun log _ _ _ _ h => ⟨log, .firstError rfl h⟩) fun log v m' hfirst => ?_
    rw [evalStatements_single]
    exact (hev second scope m').imp fun log' r s h => ⟨_, .seq hfirst h⟩

theorem evalArgs_explained (es : List Expr) (scope : ScopeId) (m : Machine) :
    Explained (EvaluatesArgs es scope m.store) (evalArgs ev scope es) m := by
  induction es generalizing m with
  | nil => exact .done rfl .nil
  | cons e es ih =>
    refine (hev e scope m).bind (fun log _ _ _ _ h => ⟨log, .firstError h⟩) fun log v m' hv => ?_
    refine (ih m').bind (fun _ _ _ _ _ h => ⟨_, .restError hv h⟩) fun log' vs m'' hvs => ?_
    exact .done rfl (.cons hv hvs)

theorem evalLoop_explained (test : Expr) (body : Option Expr) (scope : ScopeId)
    (rounds count : Nat) (last : Value) (m : Machine) :
    Explained (Loops test body scope last m.store)
      (evalLoop ev test body scope rounds count last) m := by
  induction rounds generalizing count last m with
  | zero => exact trivial
  | succ rounds ih =>
    refine (hev test scope m).bind (fun log _ _ _ _ h => ⟨log, .testError h⟩)
      fun log c m₁ htest => ?_
    cases c with
    | bool holds =>
      cases holds with
      | false =>
        obtain ⟨trace, hnote⟩ :=
          note_apply (fun _ => "while finished after " ++ showInt count ++ " iterations") m₁
        exact Ends.step rfl (Ends.step hnote ⟨_, .stop htest⟩)
      | true =>
        refine (evalBlock_explained hev body scope m₁).bind
          (fun _ _ _ _ _ h => ⟨_, .bodyError htest h⟩) fun log' v m₂ hbody => ?_
        exact (ih (count + 1) v m₂).imp fun log'' r s h => ⟨_, .round htest hbody h⟩
    | _ => exact .failed rfl (.testKind htest (by simp))

/-- A call of a closure with evaluated arguments ends as the rules say for the call expression. -/
theorem callClosure_explained {callee : Expr} {args : List Expr} {scope : ScopeId} {s s₁ : Store}
    {log₁ log₂ : List Event} {ps : List Text} {b : Option Expr} {outer : ScopeId}
    {vs : List Value} {m : Machine}
    (hcallee : Evaluates callee scope s log₁ (.value (.closure ps b outer)) s₁)
    (hargs : EvaluatesArgs args scope s₁ log₂ (.value vs) m.store) (site : Option Expr)
    (name : Text) :
    Explained (Evaluates (.call callee args) scope s) (callClosure ev site name ps b outer vs)
      m := by
  rw [callClosure_eq]
  -- The notes and the new frame leave the store as it is.
  obtain ⟨trace, hnote⟩ := noteCall_apply name ps vs m
  refine Ends.step hnote (Ends.step rfl ?_)
  unfold applyClosure
  rw [bind_assoc]
  refine Ends.step rfl ?_
  rw [bind_assoc]
  have hbinds := bindParams_ends m.store.size ps vs
    { m with trace := trace, frames := ⟨name, ps, b, outer, vs, site⟩ :: m.frames,
             store := (m.store.alloc (some outer)).2 }
  refine Ends.bind (hbinds.imp (fun _ _ h => h) ?_ fun _ h => h.elim) fun _ m₃ hps => ?_
  · rintro fault m₃ ⟨p, rfl, hps⟩
    exact ⟨_, _, .callParams hcallee hargs rfl hps⟩
  · refine (evalBlock_explained hev b m.store.size m₃).bind
      (fun _ _ _ _ _ h => ⟨_, .callError hcallee hargs rfl hps h⟩) fun log₃ v m₄ hb => ?_
    exact .done rfl (.call hcallee hargs rfl hps hb)

end

/-- **Evaluation ends as the rules say**, unless it is cut off. -/
theorem eval_explained (rounds depth : Nat) (e : Expr) (scope : ScopeId) (m : Machine) :
    Explained (Evaluates e scope m.store) (eval rounds depth e scope) m := by
  induction depth generalizing e scope m with
  | zero => exact trivial
  | succ depth ih =>
    unfold eval
    refine Ends.step rfl ?_
    dsimp only
    cases e with
    | literal v => exact ⟨_, .literal⟩
    | var name => exact ⟨_, .var⟩
    | func params body => exact ⟨_, .func⟩
    | print arg =>
      refine (ih arg scope _).bind (fun _ _ _ _ _ h => ⟨_, .firstError rfl h⟩)
        fun log v m₁ hv => ?_
      exact .done rfl (.print hv)
    | binop op left right =>
      refine (ih left scope _).bind (fun _ _ _ _ _ h => ⟨_, .firstError rfl h⟩)
        fun log₁ v m₁ hl => ?_
      refine (ih right scope _).bind (fun _ _ _ _ _ h => ⟨_, .binopError hl h⟩)
        fun log₂ w m₂ hr => ?_
      exact Ends.step rfl (combine_explained hl hr)
    | cond test thn els =>
      refine (ih test scope _).bind (fun _ _ _ _ _ h => ⟨_, .firstError rfl h⟩)
        fun log₁ v m₁ htest => ?_
      cases v with
      | bool holds =>
        cases holds with
        | true =>
          exact (evalBlock_explained ih thn scope m₁).imp fun _ _ _ h => ⟨_, .condTrue htest h⟩
        | false =>
          exact (evalBlock_explained ih els scope m₁).imp fun _ _ _ h => ⟨_, .condFalse htest h⟩
      | _ => exact .failed rfl (.condKind htest (by simp))
    | loop test body =>
      exact (evalLoop_explained ih test body scope rounds 0 .null _).imp fun _ _ _ h => ⟨_, .loop h⟩
    | seq first second => exact evalStatements_explained ih (.seq first second) scope .null _
    | decl name init =>
      refine (ih init scope _).bind (fun _ _ _ _ _ h => ⟨_, .firstError rfl h⟩)
        fun log v m₁ hv => ?_
      refine Ends.step rfl ?_
      have hstore :
          ({ m₁ with current := .node (.decl name init) } : Machine).store = m₁.store := rfl
      cases h : m₁.store.binds scope name with
      | true =>
        rw [← hstore] at h
        exact Ends.stop (declare_of_bound h v) ⟨_, _, .declDuplicate hv h⟩
      | false =>
        rw [← hstore] at h
        obtain ⟨trace, hnote⟩ := note_apply (fun _ => "declare " ++ name ++ " " ++ v.shown)
          { m₁ with current := .node (.decl name init), store := m₁.store.set scope name v }
        exact Ends.step (declare_of_unbound h v) (Ends.step hnote ⟨_, .decl hv h⟩)
    | assign name rhs =>
      refine (ih rhs scope _).bind (fun _ _ _ _ _ h => ⟨_, .firstError rfl h⟩)
        fun log v m₁ hv => ?_
      refine Ends.step rfl ?_
      obtain ⟨trace, hnote⟩ := note_apply (fun _ => "assign " ++ name ++ " " ++ v.shown)
        { m₁ with store := m₁.store.update scope name v }
      exact Ends.step hnote ⟨_, .assign hv⟩
    | call callee args =>
      refine (ih callee scope _).bind (fun _ _ _ _ _ h => ⟨_, .firstError rfl h⟩)
        fun log₁ v m₁ hcallee => ?_
      cases v with
      | closure ps b outer =>
        refine (evalArgs_explained ih args scope m₁).bind
          (fun _ _ _ _ _ h => ⟨_, .callArgs hcallee h⟩) fun log₂ vs m₂ hargs => ?_
        exact callClosure_explained ih hcallee hargs _ _
      | _ =>
        refine Ends.step rfl ?_
        exact ⟨_, _, .callKind hcallee (by simp)⟩

end Treewalk.Run
