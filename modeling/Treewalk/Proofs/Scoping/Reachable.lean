import Treewalk.Proofs.Scoping.Eval

/-!
# Scoping in all machines that can come about

A machine comes about from an initial one by evaluation and by calls, and by what can be done to
scopes from outside: one is made as the child of another one, or a name is bound or assigned in it
(`Machine.Reachable`). All these machines are well formed (`Machine.Reachable.wellFormed`), and
evaluation and calls scope in them (`Run.scoping`).
-/

namespace Treewalk

/-- Whether a machine can come about. -/
inductive Machine.Reachable : Machine → Prop where
  | initial (keep : Int) (tracing : Bool) : Reachable (.initial keep tracing)
  /-- Another machine on the same store, with none but the same calls. -/
  | sameStore {m m'} : Reachable m → m'.store = m.store → (∀ call ∈ m'.frames, call ∈ m.frames) →
      Reachable m'
  | child {m o} : Reachable m → o < m.store.size →
      Reachable { m with store := (m.store.alloc (some o)).2 }
  | set {m scope name v} : Reachable m → v.ValidIn m.store.size →
      Reachable { m with store := m.store.set scope name v }
  | update {m scope name v} : Reachable m → v.ValidIn m.store.size →
      Reachable { m with store := m.store.update scope name v }
  | eval {m rounds depth e scope outcome m'} : Reachable m → e.PlainLiterals →
      scope < m.store.size → Run.eval rounds depth e scope m = (outcome, m') → Reachable m'
  | call {m rounds depth site name ps b outer vs outcome m'} : Reachable m →
      (Value.closure ps b outer).ValidIn m.store.size → (∀ v ∈ vs, v.ValidIn m.store.size) →
      Run.callClosure (Run.eval rounds depth) site name ps b outer vs m = (outcome, m') →
      Reachable m'

/-- What an evaluation in a machine leaves, by its scoping: the store is well formed, with each
chain of scopes a walk that ends in the global scope; the result is valid; and the store has
grown. -/
structure Scoped (m : Machine) (writable : ScopeId → Prop) (outcome : Outcome Value)
    (m' : Machine) : Prop where
  wellFormed : m'.WellFormed
  acyclic : ∀ i, ¬Relation.TransGen m'.store.Inside i i
  chain : ∀ i, i < m'.store.size →
    m'.store.Walk i (m'.store.chain i) ∧ (m'.store.chain i).getLast? = some 0
  result : ∀ v, outcome = .done v → v.ValidIn m'.store.size
  grows : m.store.Grows writable m'.store

theorem Machine.wellFormed_initial (keep : Int) (tracing : Bool) :
    (Machine.initial keep tracing).WellFormed where
  store := {
    size_pos := Nat.one_pos
    global := rfl
    inner := fun i hpos hi => absurd hi (Nat.not_lt.mpr hpos)
    bindings := by
      intro i scope hs b hb
      rcases i with _ | i
      · cases hs
        cases hb
      · cases hs }
  frames _ h := nomatch h

namespace Run

variable {writable : ScopeId → Prop} {x : Run Value} {m m' : Machine} {outcome : Outcome Value}

/-- What a step keeps, for the end that it has. -/
theorem Keeps.scoped (h : x.Keeps m.store writable m fun n v => v.ValidIn n)
    (hx : x m = (outcome, m')) : Scoped m writable outcome m' := by
  have hkept : m'.Kept m.store writable ∧ ∀ v, outcome = .done v → v.ValidIn m'.store.size := by
    unfold Keeps Ends at h
    rw [hx] at h
    cases outcome with
    | done v =>
      refine ⟨h.1, ?_⟩
      rintro _ ⟨⟩
      exact h.2.2
    | failed | exhausted | unfinished => exact ⟨h, fun _ hv => nomatch hv⟩
  obtain ⟨⟨hwf, hgrows⟩, hresult⟩ := hkept
  exact ⟨hwf, hwf.store.rooted.acyclic, fun i hi => hwf.store.rooted.walk_chain hi, hresult, hgrows⟩

theorem scoped_eval (hm : m.WellFormed) {rounds depth : Nat} {e : Expr} {scope : ScopeId}
    (he : e.PlainLiterals) (hscope : scope < m.store.size)
    (h : eval rounds depth e scope m = (outcome, m')) :
    Scoped m (fun i => i = scope ∨ i = 0) outcome m' :=
  (keeps_eval (.inr rfl) rounds depth he (.refl hm) hscope fun _ => .inl rfl).scoped h

theorem scoped_callClosure (hm : m.WellFormed) {rounds depth : Nat} {site : Option Expr}
    {name : Text} {ps : List Text} {b : Option Expr} {outer : ScopeId} {vs : List Value}
    (hclosure : (Value.closure ps b outer).ValidIn m.store.size)
    (hvs : ∀ v ∈ vs, v.ValidIn m.store.size)
    (h : callClosure (eval rounds depth) site name ps b outer vs m = (outcome, m')) :
    Scoped m (fun i => i = 0) outcome m' := by
  have heval := @keeps_eval m.store (fun i => i = 0) rfl rounds depth
  refine (keeps_callClosure ?_ site name (.refl hm) hclosure hvs).scoped h
  exact fun e scope m he hm hscope hw => heval he hm hscope hw

end Run

/-- **Every machine that can come about is well formed.** -/
theorem Machine.Reachable.wellFormed {m : Machine} (h : m.Reachable) : m.WellFormed := by
  induction h with
  | initial keep tracing => exact wellFormed_initial keep tracing
  | sameStore _ hstore hframes ih =>
    refine ⟨hstore ▸ ih.store, fun call hcall => ?_⟩
    rw [hstore]
    exact ih.frames call (hframes call hcall)
  | child _ ho ih =>
    refine ih.setStore (ih.store.alloc ho) ?_
    rw [Store.size_alloc]
    exact Nat.le_succ _
  | set _ hv ih => exact ih.setStore (ih.store.set _ _ hv) (Nat.le_of_eq (Store.size_set ..).symm)
  | update _ hv ih =>
    exact ih.setStore (ih.store.update _ _ hv) (Nat.le_of_eq (Store.size_set ..).symm)
  | eval _ he hscope h ih => exact (Run.scoped_eval ih he hscope h).wellFormed
  | call _ hclosure hvs h ih => exact (Run.scoped_callClosure ih hclosure hvs h).wellFormed

/-- **Evaluation scopes.** In a machine that can come about, evaluation of an expression without
closures as literals keeps the store well formed, however it ends, and adds names in its scope and
in the global scope only; a call adds names, of the scopes of before, in the global scope only. -/
theorem Run.scoping {m : Machine} (hm : m.Reachable) :
    (∀ rounds depth e scope outcome m', e.PlainLiterals → scope < m.store.size →
      eval rounds depth e scope m = (outcome, m') →
      Scoped m (fun i => i = scope ∨ i = 0) outcome m') ∧
    ∀ rounds depth site name ps b outer vs outcome m',
      (Value.closure ps b outer).ValidIn m.store.size → (∀ v ∈ vs, v.ValidIn m.store.size) →
      callClosure (eval rounds depth) site name ps b outer vs m = (outcome, m') →
      Scoped m (fun i => i = 0) outcome m' := by
  constructor
  · intro rounds depth e scope outcome m' he hscope h
    exact scoped_eval hm.wellFormed he hscope h
  · intro rounds depth site name ps b outer vs outcome m' hclosure hvs h
    exact scoped_callClosure hm.wellFormed hclosure hvs h

/-- A function that gives a function, which is then called from outside. -/
theorem Run.scoping_inner_function :
    let e : Expr := .call (.func ["x"] (some (.func [] none))) [.literal (.int 1)]
    let m := Machine.initial 10 false
    let m' := (eval 9 9 e 0 m).2
    let after := callClosure (eval 9 9) none "inner" [] none 1 [.closure [] none 1] m'
    m.Reachable ∧ e.PlainLiterals ∧ 0 < m.store.size ∧
      eval 9 9 e 0 m = (.done (.closure [] none 1), m') ∧
      m'.store.size = 2 ∧ m'.store.names 1 = [.ofString "x"] ∧
      Scoped m (fun i => i = 0 ∨ i = 0) (.done (.closure [] none 1)) m' ∧
      m'.Reachable ∧ (Value.closure [] none 1).ValidIn m'.store.size ∧
      Scoped m' (fun i => i = 0) after.1 after.2 := by
  intro e m m' after
  have hwf : e.WellFormed := by
    simp [e, Expr.WellFormed, Expr.Everywhere, Expr.EverywhereBlock, Expr.EverywhereArgs,
      Value.Everywhere, Expr.NodeOk, Value.IsLiteral, Value.intMin, Value.intMax, Text.ofString,
      Text.ofChars]
  have he : e.PlainLiterals := hwf.plainLiterals
  have hpos : 0 < m.store.size := Nat.one_pos
  have heval : eval 9 9 e 0 m = (.done (.closure [] none 1), m') := rfl
  have hm : m.Reachable := .initial 10 false
  have hm' : m'.Reachable := .eval hm he hpos heval
  have hsize : m'.store.size = 2 := rfl
  have hclosure : (Value.closure [] none 1).ValidIn m'.store.size := ⟨Nat.one_lt_two, trivial⟩
  have hargs : ∀ v ∈ [Value.closure [] none 1], v.ValidIn m'.store.size := by
    rintro v (_ | ⟨_, hv⟩)
    · exact hclosure
    · cases hv
  exact ⟨hm, he, hpos, heval, hsize, rfl, (scoping hm).1 9 9 e 0 _ m' he hpos heval, hm', hclosure,
    (scoping hm').2 9 9 none "inner" [] none 1 _ after.1 after.2 hclosure hargs rfl⟩

end Treewalk
