import Treewalk.Proofs.Encapsulation.Seen
import Treewalk.Proofs.Scoping.Reachable
import Treewalk.Proofs.SideBySide.Same

/-!
# Evaluation depends on and changes only what it can see

Let two stores agree on the scopes that an evaluation can see. Then the two evaluations go side by
side (`Pairing.mirrors_encapsulated`): they end in the same way, print the same and leave the same
in the scopes that were seen, except that the scopes that they make have other indices where the
stores are of different size. Scopes that cannot be seen stay as they were, and whatever can be seen
from the result could be seen before or is new (`Run.eval_encapsulated`).
-/

namespace Treewalk

namespace Likeness

/-- The likeness of evaluations that see the scopes `R` and that begin with `n` and `n'` scopes.
What is seen is the same scope on both sides, new scopes correspond in the order in which they are
made, and expressions are the same and capture only scopes that are seen. -/
def encapsulated (R : ScopeId → Prop) (n n' : Nat) : Likeness where
  expr e e' := e = e' ∧ ∀ i, e.Captures i → R i
  scope i i' := (R i ∧ i' = i) ∨ ∃ k, i = n + k ∧ i' = n' + k

variable {R : ScopeId → Prop} {n n' : Nat}

theorem ordered_encapsulated (hn : ∀ i, R i → i < n) (hn' : ∀ i, R i → i < n') :
    (encapsulated R n n').Ordered := by
  have hold : ∀ i k, R i → i < n + k ∧ i < n' + k := fun i k hi =>
    ⟨Nat.lt_of_lt_of_le (hn i hi) (Nat.le_add_right n k),
      Nat.lt_of_lt_of_le (hn' i hi) (Nat.le_add_right n' k)⟩
  rintro i i' o o' (⟨hi, rfl⟩ | ⟨k, rfl, rfl⟩) (⟨ho, rfl⟩ | ⟨l, rfl, rfl⟩)
  · exact Iff.rfl
  · exact iff_of_false (Nat.lt_asymm (hold _ l hi).1) (Nat.lt_asymm (hold _ l hi).2)
  · exact iff_of_true (hold _ k ho).1 (hold _ k ho).2
  · rw [Nat.add_lt_add_iff_left, Nat.add_lt_add_iff_left]

/-- Code that captures only what is seen corresponds to itself. -/
theorem nodes_encapsulated {e e' : Expr} (h : (encapsulated R n n').expr e e') :
    (encapsulated R n n').Nodes e e' := by
  obtain ⟨rfl, h⟩ := h
  refine nodes_self (fun p hp => ⟨rfl, Expr.hereditary_captures R hp h⟩) ?_
  rintro params b i rfl
  exact .inl ⟨h i .here, rfl⟩

theorem values_encapsulated {v : Value} (h : ∀ i, v.Captures i → R i) :
    (encapsulated R n n').Values v v := by
  have hnodes : (encapsulated R n n').Nodes (.literal v) (.literal v) := nodes_encapsulated ⟨rfl, h⟩
  cases hnodes with
  | literal hv => exact hv

theorem get?_size_add (s : Store) (k : Nat) : s.get? (s.size + k) = none :=
  Array.getElem?_eq_none (Nat.le_add_right _ k)

/-- Stores that agree on what is seen. -/
theorem stores_encapsulated {s s' : Store} {given : ScopeId → Prop}
    (hagree : ∀ i, s.Sees given i → s'.get? i = s.get? i) :
    (encapsulated (s.Sees given) s.size s'.size).Stores s s' where
  scopes := by
    rintro i _ (⟨hi, rfl⟩ | ⟨k, rfl, rfl⟩)
    · rw [hagree _ hi]
      refine rel_self fun scope hscope => ⟨rel_self fun o ho => ?_, ?_⟩
      · refine .inl ⟨.outer hi ?_, rfl⟩
        unfold Store.outer?
        rw [hscope]
        exact ho
      · refine List.forall₂_same.mpr fun b hb => ⟨rfl, values_encapsulated fun j hj => ?_⟩
        exact .bound hi hscope hb hj
    · rw [get?_size_add, get?_size_add]
      exact .none
  fresh k := .inr ⟨k, rfl, rfl⟩

/-- What a value captures is seen or new, if the value corresponds to one. -/
theorem exists_scope_of_captures {v v' : Value} (h : (encapsulated R n n').Values v v')
    {i : ScopeId} (hi : v.Captures i) : ∃ i', (encapsulated R n n').scope i i' := by
  cases h with
  | int | bool | null =>
    cases hi with
    | inside hp _ =>
      cases hp with
      | child hp => cases hp
  | closure params hb hscope =>
    cases hi with
    | here => exact ⟨_, hscope⟩
    | inside hp hi =>
      cases hp with
      | child hp => cases hp
      | closure =>
        cases hb with
        | some hb => exact ⟨i, .inl ⟨hb.2 i hi, rfl⟩⟩

/-- All that can be seen from scopes that were seen or are new was seen or is new. -/
theorem exists_scope_of_sees {s s' : Store} (hs : (encapsulated R n n').Stores s s')
    {given : ScopeId → Prop} (hgiven : ∀ i, given i → ∃ i', (encapsulated R n n').scope i i')
    {i : ScopeId} (h : s.Sees given i) : ∃ i', (encapsulated R n n').scope i i' := by
  induction h with
  | given hi => exact hgiven _ hi
  | outer _ ho ih =>
    obtain ⟨i', hi⟩ := ih
    have houter := hs.outer? hi
    rw [ho] at houter
    generalize s'.outer? i' = o?' at houter
    cases houter with
    | some ho => exact ⟨_, ho⟩
  | bound _ hscope hb hj ih =>
    obtain ⟨i', hi⟩ := ih
    have hscopes := hs.scopes _ _ hi
    rw [hscope] at hscopes
    generalize s'.get? i' = scope?' at hscopes
    cases hscopes with
    | some hscopes =>
      obtain ⟨b', hb'⟩ := exists_of_forall₂_of_mem hscopes.bindings hb
      exact exists_scope_of_captures hb'.2 hj

end Likeness

/-- The machines that go the same way as another one. They differ from it in their stores and in
calls that differ in the same way, and that machine has the scopes of a store unchanged that are not
seen. -/
inductive Machine.Encapsulated (L : Likeness) (R : ScopeId → Prop) (s : Store) (m : Machine) :
    Machine → Prop where
  | mk (store' : Store) {frames' : List Frame} :
    List.Forall₂ (fun c c' => L.Frames c c' ∨ c = c') m.frames frames' →
    (∀ i, i < s.size → ¬R i → m.store.get? i = s.get? i) → s.size ≤ m.store.size →
    Encapsulated L R s m { m with store := store', frames := frames' }

section

variable {L : Likeness} {R : ScopeId → Prop} {s : Store} {m m' : Machine}

theorem Machine.Encapsulated.kept (h : m.Encapsulated L R s m') :
    ∀ i, i < s.size → ¬R i → m.store.get? i = s.get? i := by
  obtain ⟨_, _, hkept, _⟩ := h
  exact hkept

theorem Machine.Encapsulated.frames (h : m.Encapsulated L R s m') :
    List.Forall₂ (fun c c' => L.Frames c c' ∨ c = c') m.frames m'.frames := by
  obtain ⟨_, hframes, _, _⟩ := h
  exact hframes

theorem Machine.Encapsulated.eq (h : m.Encapsulated L R s m') :
    m' = { m with store := m'.store, frames := m'.frames } := by
  cases h
  rfl

end

namespace Pairing

/-- The pairing of evaluations that begin in stores `s` and `s'` and see the scopes `R`. -/
def encapsulated (R : ScopeId → Prop) (s s' : Store) : Pairing where
  toLikeness := .encapsulated R s.size s'.size
  rest := Machine.Encapsulated (.encapsulated R s.size s'.size) R s
  exhaustedFirst := False
  exhaustedSecond := False
  unfinishedFirst := False

variable {R : ScopeId → Prop} {s s' : Store}

theorem lawful_encapsulated (hn : ∀ i, R i → i < s.size) (hn' : ∀ i, R i → i < s'.size) :
    (encapsulated R s s').Lawful where
  ordered := Likeness.ordered_encapsulated hn hn'
  node := Likeness.nodes_encapsulated
  look := by
    rintro m _ e _ ⟨store', hframes, hkept, hsize⟩ ⟨rfl, -⟩
    exact .mk store' hframes hkept hsize
  note := by
    rintro m _ line ⟨store', hframes, hkept, hsize⟩
    unfold Run.note Run.change
    dsimp only
    split
    · exact .mk store' hframes hkept hsize
    · exact .mk store' hframes hkept hsize
  writeLine := by
    rintro m _ line ⟨store', hframes, hkept, hsize⟩
    exact .mk store' hframes hkept hsize
  push := by
    rintro m _ c c' ⟨store', hframes, hkept, hsize⟩ hc
    exact .mk store' (.cons (.inl hc) hframes) hkept hsize
  pop := by
    rintro m _ ⟨store', hframes, hkept, hsize⟩
    refine .mk store' ?_ hkept hsize
    simpa only [List.drop_one] using List.forall₂_drop 1 hframes
  set := by
    rintro m _ i i' v v' name ⟨store', hframes, hkept, hsize⟩ hi _
    refine .mk (store'.set i' name v') hframes ?_ ?_
    · intro j hj hR
      rw [Store.get?_set, if_neg ?_, hkept j hj hR]
      -- What is assigned to is seen or new.
      rintro rfl
      rcases hi with ⟨hi, -⟩ | ⟨k, rfl, -⟩
      · exact hR hi
      · exact Nat.not_lt.mpr (Nat.le_add_right _ k) hj
    · rw [Store.size_set]
      exact hsize
  alloc := by
    rintro m _ o o' ⟨store', hframes, hkept, hsize⟩ _
    refine .mk (store'.alloc (some o')).2 hframes ?_ ?_
    · intro j hj hR
      rw [Store.get?_alloc, if_neg ?_, hkept j hj hR]
      exact Nat.ne_of_lt (Nat.lt_of_lt_of_le hj hsize)
    · rw [Store.size_alloc]
      exact Nat.le_succ_of_le hsize

end Pairing

/-- What can be seen from scopes `R` and from a value is in `R` or new, where the value and the
store correspond to others. -/
theorem Likeness.seen_or_new {R : ScopeId → Prop} {n n' : Nat} {s s' : Store}
    (hs : (encapsulated R n n').Stores s s') {o o' : Outcome Value}
    (ho : (encapsulated R n n').Outcomes o o') {i : ScopeId}
    (hi : s.Sees (fun j => R j ∨ ∃ v, o = .done v ∧ v.Captures j) i) : R i ∨ n ≤ i := by
  have hgiven : ∀ j, (R j ∨ ∃ v, o = .done v ∧ v.Captures j) →
      ∃ j', (encapsulated R n n').scope j j' := by
    rintro j (hj | ⟨v, rfl, hj⟩)
    · exact ⟨j, .inl ⟨hj, rfl⟩⟩
    · cases ho with
      | done hv => exact exists_scope_of_captures hv hj
  obtain ⟨i', ⟨hi, -⟩ | ⟨k, rfl, -⟩⟩ := exists_scope_of_sees hs hgiven hi
  · exact .inl hi
  · exact .inr (Nat.le_add_right n k)

/-- **Evaluation is encapsulated.** Let `R` be the scopes that an evaluation can see, and let there
be another store that agrees on them. Scopes that are not seen stay as they were. In the other store
the evaluation ends in the same way and leaves the same in the scopes `R`, up to the indices of
scopes that are new; all else in the machines is the same, and so is what is printed. And what can
be seen afterwards from the scopes `R` and from the value is in `R` or new. The scopes that are seen
exist in every well-formed store (`Store.Sees.lt_size`). -/
theorem Run.eval_encapsulated (rounds depth : Nat) (e : Expr) (scope : ScopeId) (m : Machine)
    (s' : Store) (hexist : ∀ i, m.store.Sees (e.Starts scope) i → i < m.store.size)
    (hagree : ∀ i, m.store.Sees (e.Starts scope) i → s'.get? i = m.store.get? i) :
    let R := m.store.Sees (e.Starts scope)
    let L := Likeness.encapsulated R m.store.size s'.size
    let x := eval rounds depth e scope m
    let y := eval rounds depth e scope { m with store := s' }
    (∀ i, i < m.store.size → ¬R i → x.2.store.get? i = m.store.get? i) ∧
      L.Outcomes x.1 y.1 ∧ L.Stores x.2.store y.2.store ∧
      List.Forall₂ (fun c c' => L.Frames c c' ∨ c = c') x.2.frames y.2.frames ∧
      y.2 = { x.2 with store := y.2.store, frames := y.2.frames } ∧
      ∀ i, x.2.store.Sees (fun j => R j ∨ ∃ v, x.1 = .done v ∧ v.Captures j) i →
        R i ∨ m.store.size ≤ i := by
  intro R L x y
  have hexist' : ∀ i, R i → i < s'.size := by
    intro i hi
    refine Nat.lt_of_not_le fun hle => ?_
    have hnone : m.store.get? i = none := (hagree i hi).symm.trans (Array.getElem?_eq_none hle)
    exact Nat.not_le.mpr (hexist i hi) (Array.getElem?_eq_none_iff.mp hnone)
  have hlawful := Pairing.lawful_encapsulated hexist hexist'
  have hstart : (Pairing.encapsulated R m.store s').Machines m { m with store := s' } :=
    ⟨Likeness.stores_encapsulated hagree, .mk s' (List.forall₂_same.mpr fun c _ => .inr rfl)
      (fun _ _ _ => rfl) (Nat.le_refl _)⟩
  have hmirrors := hlawful.mirrors_eval
    (Likeness.exists_seq_of_same (Expr.hereditary_captures R)) (.refl rounds) (.refl depth) e e
    scope scope ⟨rfl, fun i hi => .given (.inr hi)⟩ (.inl ⟨.given (.inl rfl), rfl⟩)
  obtain ⟨houtcomes, hstores, hrest⟩ := (hmirrors _ _ hstart).outcomes id id id
  refine ⟨hrest.kept, houtcomes, hstores, hrest.frames, hrest.eq, fun i hi => ?_⟩
  exact Likeness.seen_or_new hstores houtcomes hi

/-- A function is made in a call, where a scope inside the global one is not seen. In a store
without that scope the closure is made in a scope with another index. -/
theorem Run.eval_encapsulated_unseen_scope :
    let s : Store := ⟨#[⟨none, []⟩, ⟨some 0, [("x", .null)]⟩]⟩
    let m : Machine := { Machine.initial 10 false with store := s }
    let e : Expr := .call (.func ["a"] (some (.func [] none))) [.literal (.int 1)]
    let R := s.Sees (e.Starts 0)
    (∀ i, R i → i = 0) ∧
      (eval 9 9 e 0 m).1 = .done (.closure [] none 2) ∧
      (eval 9 9 e 0 { m with store := .initial }).1 = .done (.closure [] none 1) ∧
      (∀ i, i < 2 → ¬R i → (eval 9 9 e 0 m).2.store.get? i = s.get? i) ∧
      (Likeness.encapsulated R 2 1).Outcomes (.done (.closure [] none 2))
        (.done (.closure [] none 1)) ∧
      ∀ i, (eval 9 9 e 0 m).2.store.Sees
        (fun j => R j ∨ ∃ v, (eval 9 9 e 0 m).1 = .done v ∧ v.Captures j) i → R i ∨ 2 ≤ i := by
  intro s m e R
  have hplain : e.PlainLiterals := by
    simp [e, Expr.PlainLiterals, Expr.Everywhere, Expr.EverywhereBlock, Expr.EverywhereArgs,
      Value.Everywhere, Expr.NoClosure]
  have hglobal : ∀ i, R i → i = 0 := by
    intro i hi
    induction hi with
    | given hi => exact hi.resolve_right (hplain.not_captures _)
    | outer _ ho ih =>
      subst ih
      cases ho
    | bound _ hscope hb _ ih =>
      subst ih
      cases hscope
      cases hb
  have hs : s.WellFormed :=
    ((Machine.wellFormed_initial 10 false).store.alloc Nat.one_pos).set 1 "x" trivial
  have hexist : ∀ i, R i → i < s.size := by
    intro i hi
    refine hi.lt_size hs fun j hj => ?_
    cases hj.resolve_right (hplain.not_captures j)
    exact Nat.two_pos
  have hagree : ∀ i, R i → Store.initial.get? i = s.get? i := by
    intro i hi
    cases hglobal i hi
    rfl
  obtain ⟨hkept, houtcomes, _, _, _, hseen⟩ :=
    eval_encapsulated 9 9 e 0 m Store.initial hexist hagree
  exact ⟨hglobal, rfl, rfl, hkept, houtcomes, hseen⟩

end Treewalk
