import Treewalk.Proofs.Machine.Invariant
import Treewalk.Proofs.Scoping.Store

/-!
# Reads after writes

What a name is to all scopes of a store, after it was assigned or declared in one of them.

Both are a single binding, in a scope `t`, and what reads it is a matter of the chains of scopes: a
scope `i` reads the binding of `name` in `t` if `t` lies on the chain of `i` and no scope before it
on the chain binds the name (`Store.Unshadowed`). Those scopes read the new value, and all others,
and all names besides, are read as before (`Store.resolve_set_of_unshadowed`,
`Store.resolve_set_of_shadowed`, `Store.resolve_set_of_ne`).

For an assignment, `t` is where the name is found or else the global scope, and the scopes that read
it are the ones that find the name in the same place (`Store.Rooted.unshadowed_iff`). For a
declaration it is the scope itself.
-/

namespace Treewalk

namespace Store

/-- Whether the chain of a scope reaches `t` and no scope before that binds a name. -/
def Unshadowed (s : Store) (name : Text) (i t : ScopeId) : Prop :=
  ∃ inner outer, s.chain i = inner ++ t :: outer ∧ ∀ j ∈ inner, s.binds j name = false

/-- The scope in which an assignment binds a name: the nearest one that binds it already, or the
global one. -/
def target (s : Store) (i : ScopeId) (name : Text) : ScopeId := (s.owner? i name).getD 0

/-- Whether two stores differ at most in what the scope `t` binds to a name. If the name is new
there it comes after the other names. -/
structure DiffersAt (s : Store) (t : ScopeId) (name : Text) (s' : Store) : Prop where
  size : s'.size = s.size
  scopes : ∀ i, i ≠ t → s'.get? i = s.get? i
  outer : s'.outer? t = s.outer? t
  bindings : ∀ other, other ≠ name → s'.local? t other = s.local? t other
  names : s'.names t = if name ∈ s.names t then s.names t else s.names t ++ [name]

/-- Whether `s'` is what an assignment in the scope `i` may leave of the store `s`: one binding
differs, and the new value is read by the scopes that found the name in the same place. -/
structure Assigned (s : Store) (i : ScopeId) (name : Text) (v : Value) (s' : Store) : Prop where
  differs : s.DiffersAt (s.target i name) name s'
  self : s'.resolve i name = v
  others : ∀ j, j < s.size → ∀ other, other ≠ name → s'.resolve j other = s.resolve j other
  same : ∀ j, j < s.size → s.target j name = s.target i name → s'.resolve j name = v
  apart : ∀ j, j < s.size → s.target j name ≠ s.target i name →
    s'.resolve j name = s.resolve j name

/-- Whether `s'` is what a declaration in the scope `i` may leave of the store `s`: one binding
differs, and the new value is read by the scopes whose chain reaches it. -/
structure Declared (s : Store) (i : ScopeId) (name : Text) (v : Value) (s' : Store) : Prop where
  differs : s.DiffersAt i name s'
  self : s'.resolve i name = v
  others : ∀ j, j < s.size → ∀ other, other ≠ name → s'.resolve j other = s.resolve j other
  seen : ∀ j, j < s.size → s.Unshadowed name j i → s'.resolve j name = v
  unseen : ∀ j, j < s.size → ¬s.Unshadowed name j i → s'.resolve j name = s.resolve j name

variable {s : Store} {i j t : ScopeId} {name other : Text} {v : Value}

/-! ## Chains go down -/

/-- The chain of a scope ends there or goes on with the chain of an earlier scope. -/
theorem chain_cases (s : Store) (i : ScopeId) :
    s.chain i = [i] ∨ ∃ o, o < i ∧ s.chain i = i :: s.chain o := by
  rw [chain]
  cases s.outer? i with
  | none => exact .inl rfl
  | some o =>
    dsimp only
    split
    · rename_i ho
      exact .inr ⟨o, ho, rfl⟩
    · exact .inl rfl

theorem le_of_mem_chain (h : j ∈ s.chain i) : j ≤ i := by
  induction i using Nat.strongRecOn with
  | _ i ih =>
    rcases s.chain_cases i with hchain | ⟨o, ho, hchain⟩ <;> rw [hchain] at h
    · exact Nat.le_of_eq (List.mem_singleton.mp h)
    · rcases List.mem_cons.mp h with rfl | h
      · exact Nat.le_refl _
      · exact Nat.le_of_lt (Nat.lt_of_le_of_lt (ih o ho h) ho)

/-- Each scope on a chain comes before those from which it is reached. -/
theorem pairwise_chain (s : Store) (i : ScopeId) : (s.chain i).Pairwise (· > ·) := by
  induction i using Nat.strongRecOn with
  | _ i ih =>
    rcases s.chain_cases i with hchain | ⟨o, ho, hchain⟩ <;> rw [hchain]
    · exact List.pairwise_singleton _ _
    · refine List.pairwise_cons.mpr ⟨fun j hj => ?_, ih o ho⟩
      exact Nat.lt_of_le_of_lt (le_of_mem_chain hj) ho

/-- What stands on a chain before a scope, and what stands behind it. -/
theorem lt_of_chain_eq {inner outer : List ScopeId} (h : s.chain i = inner ++ t :: outer) :
    (∀ j ∈ inner, t < j) ∧ ∀ o ∈ outer, o < t := by
  have hpairs := s.pairwise_chain i
  rw [h, List.pairwise_append, List.pairwise_cons] at hpairs
  obtain ⟨-, ⟨houter, -⟩, hinner⟩ := hpairs
  exact ⟨fun j hj => hinner j hj t List.mem_cons_self, houter⟩

/-! ## Reading through one write -/

/-- A name is read where the chain first binds it. -/
theorem resolve_eq_findSome? (s : Store) (i : ScopeId) (name : Text) :
    s.resolve i name = ((s.chain i).findSome? (s.local? · name)).getD .null := by
  unfold resolve owner? binds
  congr 1
  induction s.chain i with
  | nil => rfl
  | cons o os ih =>
    rw [List.find?_cons, List.findSome?_cons]
    cases h : s.local? o name with
    | none => exact ih
    | some v => exact h

theorem binds_eq_false_iff : s.binds i name = false ↔ s.local? i name = none := by
  unfold binds
  exact Option.isSome_eq_false_iff.trans Option.isNone_iff_eq_none

theorem resolve_set_of_ne (ht : t < s.size) (h : other ≠ name) (v : Value) (j : ScopeId) :
    (s.set t name v).resolve j other = s.resolve j other := by
  have hlocal : ∀ o, (s.set t name v).local? o other = s.local? o other := fun o => by
    rw [local?_set s t o name other v ht, if_neg fun hc => h hc.2]
  simp only [resolve_eq_findSome?, chain_set, hlocal]

/-- What a list of scopes that does not hold `t` finds is not changed by a write in `t`. -/
theorem findSome?_set (ht : t < s.size) {is : List ScopeId} (h : t ∉ is) (v : Value) :
    is.findSome? ((s.set t name v).local? · name) = is.findSome? (s.local? · name) := by
  induction is with
  | nil => rfl
  | cons o os ih =>
    have hne : t ≠ o := List.ne_of_not_mem_cons h
    rw [List.findSome?_cons, List.findSome?_cons, local?_set s t o name name v ht,
      if_neg fun hc => hne hc.1, ih (List.not_mem_of_not_mem_cons h)]

/-- **A scope whose chain reaches the written one**, and binds the name nowhere before, reads the
new value. -/
theorem resolve_set_of_unshadowed (ht : t < s.size) (h : s.Unshadowed name j t) (v : Value) :
    (s.set t name v).resolve j name = v := by
  obtain ⟨inner, outer, hchain, hinner⟩ := h
  -- A chain goes down, and so it comes to `t` only once.
  have hnotin : t ∉ inner := fun hmem => Nat.lt_irrefl t ((lt_of_chain_eq hchain).1 t hmem)
  have hnone : inner.findSome? (s.local? · name) = none :=
    List.findSome?_eq_none_iff.mpr fun o ho => binds_eq_false_iff.mp (hinner o ho)
  have hlocal : (s.set t name v).local? t name = some v := by
    rw [local?_set s t t name name v ht, if_pos ⟨rfl, rfl⟩]
  rw [resolve_eq_findSome?, chain_set, hchain, List.findSome?_append, findSome?_set ht hnotin,
    hnone, List.findSome?_cons, hlocal]
  rfl

/-- **All other scopes** read what they read before. -/
theorem resolve_set_of_shadowed (ht : t < s.size) (h : ¬s.Unshadowed name j t) (v : Value) :
    (s.set t name v).resolve j name = s.resolve j name := by
  rw [resolve_eq_findSome?, resolve_eq_findSome?, chain_set]
  by_cases hmem : t ∈ s.chain j
  · -- A scope before `t` binds the name, and so the search does not come to `t`.
    obtain ⟨inner, outer, hchain, hnotin⟩ := List.eq_append_cons_of_mem hmem
    have hfound : ¬inner.findSome? (s.local? · name) = none := by
      intro hnone
      refine h ⟨inner, outer, hchain, fun o ho => binds_eq_false_iff.mpr ?_⟩
      exact List.findSome?_eq_none_iff.mp hnone o ho
    obtain ⟨w, hw⟩ := Option.ne_none_iff_exists'.mp hfound
    rw [hchain, List.findSome?_append, List.findSome?_append, findSome?_set ht hnotin, hw]
    rfl
  · rw [findSome?_set ht hmem]

theorem differsAt_set (ht : t < s.size) (name : Text) (v : Value) :
    s.DiffersAt t name (s.set t name v) where
  size := size_set s t name v
  scopes i hi := by rw [get?_set, if_neg (Ne.symm hi)]
  outer := outer?_set s t t name v
  bindings other hother := by
    rw [local?_set s t t name other v ht, if_neg fun hc => hother hc.2]
  names := by
    rw [names_set s t t name v ht]
    by_cases hname : name ∈ s.names t <;> simp [hname]

/-! ## Where a name is assigned -/

/-- No scope before its owner binds a name; if it has none, no scope of the chain does. -/
theorem unshadowed_owner (s : Store) (i : ScopeId) (name : Text) :
    s.Unshadowed name i ((s.owner? i name).getD (s.globalOf i)) := by
  cases ho : s.owner? i name with
  | some o =>
    obtain ⟨-, inner, outer, hchain, hinner⟩ := List.find?_eq_some_iff_append.mp ho
    exact ⟨inner, outer, hchain, fun j hj => by simpa using hinner j hj⟩
  | none =>
    have hne : s.chain i ≠ [] := by
      rcases s.chain_cases i with h | ⟨_, _, h⟩ <;> simp [h]
    refine ⟨(s.chain i).dropLast, [], ?_, fun j hj => ?_⟩
    · rw [Option.getD_none, globalOf, List.getLast?_eq_some_getLast hne]
      exact (List.dropLast_concat_getLast hne).symm
    · have := List.find?_eq_none.mp ho j (List.dropLast_subset _ hj)
      simpa using this

/-- The scope of an assignment is a scope of the store. -/
theorem Unshadowed.lt_size (h : s.Unshadowed name i t) (hi : i < s.size) : t < s.size := by
  obtain ⟨inner, outer, hchain, -⟩ := h
  have hmem : t ∈ s.chain i := hchain ▸ List.mem_append_right inner List.mem_cons_self
  exact Nat.lt_of_le_of_lt (le_of_mem_chain hmem) hi

/-- **What was assigned is read**, in any store. -/
theorem resolve_update_self (hi : i < s.size) (name : Text) (v : Value) :
    (s.update i name v).resolve i name = v :=
  resolve_set_of_unshadowed ((s.unshadowed_owner i name).lt_size hi) (s.unshadowed_owner i name) v

/-- **What was declared is read**, in any store. -/
theorem resolve_set_self (hi : i < s.size) (name : Text) (v : Value) :
    (s.set i name v).resolve i name = v := by
  refine resolve_set_of_unshadowed hi ⟨[], (s.chain i).tail, ?_, nofun⟩ v
  rcases s.chain_cases i with h | ⟨_, _, h⟩ <;> rw [h] <;> rfl

/-- A scope that is reached without a binding before it is the target, if it binds the name or is
the global one. -/
theorem target_of_unshadowed (ht : s.Unshadowed name j t)
    (hbinds : s.binds t name = true ∨ t = 0) : s.target j name = t := by
  obtain ⟨inner, outer, hchain, hinner⟩ := ht
  cases hb : s.binds t name with
  | true =>
    have hfree : ∀ o ∈ inner, (!s.binds o name) = true := fun o ho => by simp [hinner o ho]
    have howner : s.owner? j name = some t :=
      List.find?_eq_some_iff_append.mpr ⟨hb, inner, outer, hchain, hfree⟩
    rw [target, howner, Option.getD_some]
  | false =>
    -- Nothing comes before the global scope, and so it ends the chain.
    obtain rfl : t = 0 := hbinds.resolve_left (by simp [hb])
    have houter : outer = [] := by
      refine List.eq_nil_iff_forall_not_mem.mpr fun o ho => ?_
      exact Nat.not_lt_zero o ((lt_of_chain_eq hchain).2 o ho)
    have howner : s.owner? j name = none := by
      refine List.find?_eq_none.mpr fun o ho => ?_
      rw [hchain, houter] at ho
      rcases List.mem_append.mp ho with ho | ho
      · simp [hinner o ho]
      · simp [List.mem_singleton.mp ho, hb]
    rw [target, howner, Option.getD_none]

theorem binds_target (s : Store) (i : ScopeId) (name : Text) :
    s.binds (s.target i name) name = true ∨ s.target i name = 0 := by
  unfold target
  cases ho : s.owner? i name with
  | some o => exact .inl (List.find?_some (p := (s.binds · name)) ho)
  | none => exact .inr rfl

namespace Rooted

variable (h : s.Rooted)

include h

theorem getD_globalOf (hi : i < s.size) (name : Text) :
    (s.owner? i name).getD (s.globalOf i) = s.target i name := by
  rw [target, h.globalOf_eq hi]

theorem unshadowed_target (hi : i < s.size) (name : Text) :
    s.Unshadowed name i (s.target i name) :=
  h.getD_globalOf hi name ▸ s.unshadowed_owner i name

/-- **Two scopes read the same binding** exactly if they find the name in the same place. -/
theorem unshadowed_iff (hj : j < s.size) (i : ScopeId) (name : Text) :
    s.Unshadowed name j (s.target i name) ↔ s.target j name = s.target i name := by
  constructor
  · exact fun ht => target_of_unshadowed ht (s.binds_target i name)
  · exact fun heq => heq ▸ h.unshadowed_target hj name

theorem assigned_update (hi : i < s.size) (name : Text) (v : Value) :
    s.Assigned i name v (s.update i name v) := by
  have ht : s.target i name < s.size := (h.unshadowed_target hi name).lt_size hi
  have hupdate : s.update i name v = s.set (s.target i name) name v := by
    rw [update, h.getD_globalOf hi]
  refine ⟨?_, resolve_update_self hi name v, ?_, ?_, ?_⟩ <;> rw [hupdate]
  · exact differsAt_set ht name v
  · exact fun j _ other hother => resolve_set_of_ne ht hother v j
  · exact fun j hj heq => resolve_set_of_unshadowed ht ((h.unshadowed_iff hj i name).mpr heq) v
  · exact fun j hj hne => resolve_set_of_shadowed ht (mt (h.unshadowed_iff hj i name).mp hne) v

end Rooted

theorem declared_set (hi : i < s.size) (name : Text) (v : Value) :
    s.Declared i name v (s.set i name v) where
  differs := differsAt_set hi name v
  self := resolve_set_self hi name v
  others j _ _ hother := resolve_set_of_ne hi hother v j
  seen _ _ hseen := resolve_set_of_unshadowed hi hseen v
  unseen _ _ hunseen := resolve_set_of_shadowed hi hunseen v

end Store

/-! ## Evaluation -/

/-- No scope is ever removed. -/
theorem Invariant.lawful_sizeAtLeast (n : Nat) :
    (Invariant.mk (n ≤ ·.store.size) (fun _ => True) (fun _ => True) fun _ => True).Lawful where
  hereditary _ _ := trivial
  literal _ := trivial
  func _ _ := trivial
  body _ := trivial
  null := trivial
  computed _ := trivial
  resolve _ _ _ := trivial
  look _ hm := hm
  note _ hm := hm
  writeLine _ hm := hm
  declare _ hm _ _ := Nat.le_trans hm (Nat.le_of_eq (Store.size_set ..).symm)
  update _ hm _ _ := Nat.le_trans hm (Nat.le_of_eq (Store.size_set ..).symm)
  newScope outer hm := by
    refine ⟨trivial, Nat.le_trans hm ?_⟩
    rw [Store.size_alloc]
    exact Nat.le_succ _
  bind _ hm _ _ := Nat.le_trans hm (Nat.le_of_eq (Store.size_set ..).symm)
  push _ _ hm _ _ := hm
  pop hm := hm

namespace Run

variable {rounds depth : Nat} {name : Text} {e rhs init : Expr} {scope : ScopeId} {m m₁ : Machine}
  {v : Value} {outcome : Outcome Value}

theorem size_le_of_eval (h : eval rounds depth e scope m = (outcome, m₁)) :
    m.store.size ≤ m₁.store.size := by
  have hkept := (Invariant.lawful_sizeAtLeast m.store.size).maintains_eval rounds depth e scope
    trivial m (Nat.le_refl _)
  rw [h] at hkept
  exact hkept.1

/-- An assignment gives the value that was assigned. -/
theorem eval_assign_of_done (hscope : scope < m.store.size)
    (h : eval rounds depth rhs scope { m with current := .node (.assign name rhs) } =
      (.done v, m₁)) :
    (eval rounds (depth + 1) (.assign name rhs) scope m).1 = .done v := by
  have hsize := size_le_of_eval h
  have hscope : scope < m₁.store.size := Nat.lt_of_lt_of_le hscope hsize
  obtain ⟨trace, hnote⟩ := note_apply (fun _ => "assign " ++ name ++ " " ++ v.shown)
    { m₁ with store := m₁.store.update scope name v }
  have hread := Store.resolve_update_self hscope name v
  unfold eval
  simp only [bind_apply, look, change, h, update, hnote, resolve, inspect, hread]

/-- A declaration fails if the scope binds the name by then, and else gives the value that was
declared. -/
theorem eval_decl_of_done (hscope : scope < m.store.size)
    (h : eval rounds depth init scope { m with current := .node (.decl name init) } =
      (.done v, m₁)) :
    (eval rounds (depth + 1) (.decl name init) scope m).1 =
      if m₁.store.binds scope name then .failed (.duplicateVariable name) else .done v := by
  have hsize := size_le_of_eval h
  have hscope : scope < m₁.store.size := Nat.lt_of_lt_of_le hscope hsize
  cases hb : m₁.store.binds scope name with
  | true =>
    have hdeclare := declare_of_bound (m := { m₁ with current := .node (.decl name init) }) hb v
    unfold eval
    simp only [bind_apply, look, change, h, hdeclare, if_pos]
  | false =>
    have hdeclare := declare_of_unbound (m := { m₁ with current := .node (.decl name init) }) hb v
    obtain ⟨trace, hnote⟩ := note_apply (fun _ => "declare " ++ name ++ " " ++ v.shown)
      { m₁ with current := .node (.decl name init), store := m₁.store.set scope name v }
    have hread := Store.resolve_set_self hscope name v
    unfold eval
    simp only [bind_apply, look, change, h, hdeclare, hnote, resolve, inspect, hread,
      Bool.false_eq_true, if_false]

/-- **What was written is read.** An assignment changes one binding, and the scopes that find the
name in the same place read the new value. A declaration is refused, and changes nothing, exactly if
the scope binds the name already, and else the scopes whose chain reaches the scope without a
binding of the name before it read the new value. All other reads give what they gave before; and so
both expressions give the value that was evaluated for them. -/
theorem readAfterWrite {m : Machine} (hm : m.store.Rooted) {scope : ScopeId}
    (hscope : scope < m.store.size) (name : Text) :
    (∀ v, m.store.Assigned scope name v (m.store.update scope name v)) ∧
    (∀ v, m.store.binds scope name = true ∧
        declare scope name v m = (.failed (.duplicateVariable name), m) ∨
      m.store.binds scope name = false ∧ ∃ s', m.store.Declared scope name v s' ∧
        declare scope name v m = (.done (), { m with store := s' })) ∧
    (∀ rounds depth rhs v m₁,
      eval rounds depth rhs scope { m with current := .node (.assign name rhs) } = (.done v, m₁) →
      (eval rounds (depth + 1) (.assign name rhs) scope m).1 = .done v) ∧
    ∀ rounds depth init v m₁,
      eval rounds depth init scope { m with current := .node (.decl name init) } = (.done v, m₁) →
      (eval rounds (depth + 1) (.decl name init) scope m).1 =
        if m₁.store.binds scope name then .failed (.duplicateVariable name) else .done v := by
  refine ⟨fun v => hm.assigned_update hscope name v, fun v => ?_,
    fun _ _ _ _ _ h => eval_assign_of_done hscope h,
    fun _ _ _ _ _ h => eval_decl_of_done hscope h⟩
  cases hb : m.store.binds scope name with
  | true => exact .inl ⟨rfl, declare_of_bound hb v⟩
  | false =>
    exact .inr ⟨rfl, _, Store.declared_set hscope name v, declare_of_unbound hb v⟩

/-- Three scopes inside each other, of which the outermost and the innermost bind a name that is
written in the middle one. -/
theorem readAfterWrite_nested_scopes :
    let s : Store := ⟨#[⟨none, [("x", .int 1)]⟩, ⟨some 0, []⟩, ⟨some 1, [("x", .int 2)]⟩]⟩
    let m := { Machine.initial 10 false with store := s }
    let three : Expr := .literal (.int 3)
    s.Rooted ∧ 1 < s.size ∧
      s.Assigned 1 "x" (.int 3) (s.update 1 "x" (.int 3)) ∧
      (s.update 1 "x" (.int 3)).resolve 0 "x" = .int 3 ∧
      (s.update 1 "x" (.int 3)).resolve 2 "x" = .int 2 ∧
      (∃ s', s.Declared 1 "x" (.int 3) s' ∧ s'.resolve 0 "x" = .int 1 ∧
        declare 1 "x" (.int 3) m = (.done (), { m with store := s' })) ∧
      (eval 5 2 (.assign "x" three) 1 m).1 = .done (.int 3) ∧
      (eval 5 2 (.decl "x" three) 1 m).1 = .done (.int 3) := by
  intro s m three
  have hs : m.store.Rooted := by
    refine ⟨Nat.zero_lt_succ 2, rfl, fun i hpos hi => ?_⟩
    rcases i with _ | _ | _ | i
    · cases hpos
    · exact ⟨0, Nat.zero_lt_one, rfl⟩
    · exact ⟨1, Nat.one_lt_two, rfl⟩
    · exact absurd hi (Nat.not_lt.mpr (Nat.le_add_left 3 i))
  have hscope : 1 < m.store.size := Nat.one_lt_succ_succ 1
  obtain ⟨hassigned, hdeclared, hassign, hdecl⟩ := readAfterWrite hs hscope "x"
  obtain ⟨-, s', hs', hdone⟩ :=
    (hdeclared (.int 3)).resolve_left fun hbound => absurd hbound.1 (by decide +kernel)
  have hassigned := hassigned (.int 3)
  refine ⟨hs, hscope, hassigned, ?_, ?_, ⟨s', hs', ?_, hdone⟩, hassign 5 1 three (.int 3) _ rfl,
    (hdecl 5 1 three (.int 3) _ rfl).trans (if_neg (by decide +kernel))⟩
  · exact hassigned.same 0 (by decide) (by decide +kernel)
  · exact (hassigned.apart 2 (by decide) (by decide +kernel)).trans (by decide +kernel)
  · refine (hs'.unseen 0 (by decide) ?_).trans (by decide +kernel)
    rintro ⟨inner, outer, hchain, -⟩
    have hmem : (1 : ScopeId) ∈ s.chain 0 :=
      hchain ▸ List.mem_append_right inner List.mem_cons_self
    exact absurd (Store.le_of_mem_chain hmem) (by decide)

end Run

end Treewalk
