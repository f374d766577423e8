import Mathlib.Logic.Relation
import Treewalk.Proofs.Syntax.WellFormed
import Treewalk.Store

/-!
# Well-formed stores

A store is well formed if there is one global scope, every other scope lies inside an earlier one,
and the closures that scopes bind were made in scopes of the store. In such a store every chain of
scopes ends in the global scope (`Store.Rooted.walk_chain`).

`s.Grows s' writable` says what may become of a store: scopes are added, and names are added at the
end of the names of a scope, but only in scopes that are `writable`. The steps on the store keep it
well formed and let it grow: a declaration in its scope, and an assignment in the global scope only,
because elsewhere it changes a name that is there already (`Store.WellFormed.grows_update`).

What holds of all values that scopes bind (`Store.ValuesAre`) holds of whatever is read, and goes on
to hold as long as it holds of what is written.
-/

namespace Treewalk

/-- Whether the closures of a value were made in one of the first `n` scopes, and whether their
bodies hold no closures as literals. -/
def Value.ValidIn (n : Nat) : Value → Prop
  | .closure _ body scope => scope < n ∧ Expr.EverywhereBlock Expr.NoClosure body
  | _ => True

theorem Value.ValidIn.mono {n n' : Nat} {v : Value} (h : v.ValidIn n) (hn : n ≤ n') :
    v.ValidIn n' := by
  cases v with
  | closure => exact ⟨Nat.lt_of_lt_of_le h.1 hn, h.2⟩
  | int | bool | null => trivial

namespace Store

/-- The names of a scope, in the order in which they were first bound. -/
def names (s : Store) (i : ScopeId) : List Text := ((s.get? i).map (·.names)).getD []

/-- Whether a property holds of all values that scopes bind. -/
def ValuesAre (P : Value → Prop) (s : Store) : Prop :=
  ∀ i scope, s.get? i = some scope → ∀ b ∈ scope.bindings, P b.2

/-- Whether a scope lies directly inside another one. -/
def Inside (s : Store) (i o : ScopeId) : Prop := s.outer? i = some o

/-- Whether a walk outwards from a scope passes the listed scopes and then ends. -/
inductive Walk (s : Store) : ScopeId → List ScopeId → Prop where
  | last {i} : s.outer? i = none → Walk s i [i]
  | step {i o is} : s.Inside i o → Walk s o is → Walk s i (i :: is)

/-- Whether there is one global scope, around all others. -/
structure Rooted (s : Store) : Prop where
  size_pos : 0 < s.size
  global : s.outer? 0 = none
  inner : ∀ i, 0 < i → i < s.size → ∃ o, o < i ∧ s.Inside i o

/-- Whether there is one global scope, around all others, and all closures are valid. -/
structure WellFormed (s : Store) : Prop where
  size_pos : 0 < s.size
  global : s.outer? 0 = none
  inner : ∀ i, 0 < i → i < s.size → ∃ o, o < i ∧ s.Inside i o
  bindings : ∀ i scope, s.get? i = some scope → ∀ b ∈ scope.bindings, b.2.ValidIn s.size

/-- Whether a store arises from another one by adding scopes, by changing values, and by adding
names in scopes that are writable. -/
structure Grows (s : Store) (writable : ScopeId → Prop) (s' : Store) : Prop where
  size : s.size ≤ s'.size
  outer : ∀ i, i < s.size → s'.outer? i = s.outer? i
  names_prefix : ∀ i, i < s.size → s.names i <+: s'.names i
  names_eq : ∀ i, i < s.size → ¬writable i → s'.names i = s.names i

variable {s s₁ s₂ : Store} {i j o : ScopeId} {name : Text} {v : Value}
  {writable writable' : ScopeId → Prop}

theorem Grows.refl (s : Store) : s.Grows writable s :=
  ⟨Nat.le_refl _, fun _ _ => rfl, fun _ _ => List.prefix_rfl, fun _ _ _ => rfl⟩

/-- Growing twice. What is writable later needs to be writable only if it was there before. -/
theorem Grows.trans (h : s.Grows writable s₁) (h' : s₁.Grows writable' s₂)
    (hw : ∀ i, i < s.size → writable' i → writable i) : s.Grows writable s₂ where
  size := Nat.le_trans h.size h'.size
  outer i hi := by
    rw [h'.outer i (Nat.lt_of_lt_of_le hi h.size), h.outer i hi]
  names_prefix i hi :=
    (h.names_prefix i hi).trans (h'.names_prefix i (Nat.lt_of_lt_of_le hi h.size))
  names_eq i hi hi' := by
    have hlater : ¬writable' i := fun hc => hi' (hw i hi hc)
    rw [h'.names_eq i (Nat.lt_of_lt_of_le hi h.size) hlater, h.names_eq i hi hi']

/-! ## Chains -/

theorem WellFormed.rooted (h : s.WellFormed) : s.Rooted :=
  ⟨h.size_pos, h.global, h.inner⟩

/-- Outer scopes come before the scopes inside them. -/
theorem Rooted.lt_of_inside (h : s.Rooted) (hio : s.Inside i o) : o < i := by
  rcases Nat.eq_zero_or_pos i with rfl | hpos
  · have := h.global.symm.trans hio
    cases this
  · -- Only a scope of the store has an outer one.
    have hi : i < s.size := by
      unfold Inside outer? get? at hio
      rw [Option.bind_eq_some_iff] at hio
      obtain ⟨scope, hs, _⟩ := hio
      exact (Array.getElem?_eq_some_iff.mp hs).1
    obtain ⟨o', ho', hio'⟩ := h.inner i hpos hi
    cases hio.symm.trans hio'
    exact ho'

/-- No scope lies inside itself. -/
theorem Rooted.acyclic (h : s.Rooted) (i : ScopeId) : ¬Relation.TransGen s.Inside i i := by
  suffices hlt : ∀ j, Relation.TransGen s.Inside i j → j < i from
    fun hi => Nat.lt_irrefl i (hlt i hi)
  intro j hj
  induction hj with
  | single hij => exact h.lt_of_inside hij
  | tail _ hjk ih => exact Nat.lt_trans (h.lt_of_inside hjk) ih

/-- **The chain of a scope** is the walk outwards from it, which ends in the global scope. -/
theorem Rooted.walk_chain (h : s.Rooted) (hi : i < s.size) :
    s.Walk i (s.chain i) ∧ (s.chain i).getLast? = some 0 := by
  induction i using Nat.strongRecOn with
  | _ i ih =>
    rcases Nat.eq_zero_or_pos i with rfl | hpos
    · rw [chain, h.global]
      exact ⟨.last h.global, rfl⟩
    · -- The guard of `chain` lets the walk go on, because the outer scope comes before.
      obtain ⟨o, ho, hio⟩ := h.inner i hpos hi
      obtain ⟨hwalk, hlast⟩ := ih o ho (Nat.lt_trans ho hi)
      have hchain : s.chain i = i :: s.chain o := by
        rw [chain, show s.outer? i = some o from hio]
        exact congrArg (i :: ·) (if_pos ho)
      rw [hchain]
      refine ⟨.step hio hwalk, ?_⟩
      rw [List.getLast?_cons, hlast]
      rfl

theorem Rooted.globalOf_eq (h : s.Rooted) (hi : i < s.size) : s.globalOf i = 0 := by
  rw [globalOf, (h.walk_chain hi).2]
  rfl

/-! ## Reading -/

section

variable {P Q : Value → Prop}

theorem ValuesAre.imp (h : s.ValuesAre P) (hPQ : ∀ v, P v → Q v) : s.ValuesAre Q :=
  fun i scope hs b hb => hPQ b.2 (h i scope hs b hb)

theorem ValuesAre.local (h : s.ValuesAre P) (hv : s.local? i name = some v) : P v := by
  unfold local? at hv
  rw [Option.bind_eq_some_iff] at hv
  obtain ⟨scope, hs, hv⟩ := hv
  obtain ⟨before, after, hbs, -⟩ := List.lookup_eq_some_iff.mp hv
  refine h i scope hs (name, v) ?_
  rw [hbs]
  exact List.mem_append_right before List.mem_cons_self

/-- What is found along a chain of scopes is null or is bound in one of them. -/
theorem ValuesAre.resolve (h : s.ValuesAre P) (hnull : P .null) (i : ScopeId) (name : Text) :
    P (s.resolve i name) := by
  unfold Store.resolve
  cases ho : (s.owner? i name).bind (s.local? · name) with
  | none => exact hnull
  | some v =>
    obtain ⟨o, -, hv⟩ := Option.bind_eq_some_iff.mp ho
    exact h.local hv

end

theorem WellFormed.validIn_resolve (h : s.WellFormed) (i : ScopeId) (name : Text) :
    (s.resolve i name).ValidIn s.size :=
  ValuesAre.resolve h.bindings trivial i name

theorem mem_names_iff : name ∈ s.names i ↔ s.binds i name = true := by
  unfold names binds local?
  cases s.get? i with
  | none => simp
  | some scope =>
    show name ∈ scope.bindings.map (·.1) ↔ (scope.bindings.lookup name).isSome = true
    rw [List.lookup_isSome_iff, List.mem_map]
    constructor
    · rintro ⟨b, hb, rfl⟩
      exact ⟨b, hb, beq_self_eq_true b.1⟩
    · rintro ⟨b, hb, hname⟩
      exact ⟨b, hb, (eq_of_beq hname).symm⟩

/-! ## New scopes -/

theorem size_alloc (s : Store) (outer : Option ScopeId) :
    (s.alloc outer).2.size = s.size + 1 := by
  simp [alloc, size]

/-- A new scope comes last and is empty. -/
theorem get?_alloc (s : Store) (outer : Option ScopeId) (i : ScopeId) :
    (s.alloc outer).2.get? i = if i = s.size then some ⟨outer, []⟩ else s.get? i := by
  exact Array.getElem?_push

theorem outer?_alloc (s : Store) (outer : Option ScopeId) (i : ScopeId) :
    (s.alloc outer).2.outer? i = if i = s.size then outer else s.outer? i := by
  unfold outer?
  rw [get?_alloc]
  split <;> rfl

theorem ValuesAre.alloc {P : Value → Prop} (h : s.ValuesAre P) (outer : Option ScopeId) :
    (s.alloc outer).2.ValuesAre P := by
  intro i scope hs b hb
  rw [get?_alloc] at hs
  split at hs
  · cases hs
    cases hb
  · exact h i scope hs b hb

theorem grows_alloc (s : Store) (outer : Option ScopeId) : s.Grows writable (s.alloc outer).2 := by
  have hnames : ∀ i, i < s.size → (s.alloc outer).2.names i = s.names i := by
    intro i hi
    unfold names
    rw [get?_alloc, if_neg (Nat.ne_of_lt hi)]
  have hsize : s.size ≤ (s.alloc outer).2.size := by
    rw [size_alloc]
    exact Nat.le_succ _
  refine ⟨hsize, ?_, ?_, fun i hi _ => hnames i hi⟩
  · intro i hi
    rw [outer?_alloc, if_neg (Nat.ne_of_lt hi)]
  · intro i hi
    exact hnames i hi ▸ List.prefix_rfl

theorem WellFormed.alloc (h : s.WellFormed) (ho : o < s.size) :
    (s.alloc (some o)).2.WellFormed where
  size_pos := by
    rw [size_alloc]
    exact Nat.succ_pos _
  global := by
    rw [outer?_alloc, if_neg (Nat.ne_of_lt h.size_pos), h.global]
  inner i hpos hi := by
    unfold Inside
    rw [outer?_alloc]
    by_cases hnew : i = s.size
    · exact ⟨o, hnew ▸ ho, if_pos hnew⟩
    · rw [size_alloc] at hi
      rw [if_neg hnew]
      exact h.inner i hpos (by omega)
  bindings := by
    rw [size_alloc]
    exact (ValuesAre.alloc h.bindings (some o)).imp fun v hv => hv.mono (Nat.le_succ _)

/-! ## Bindings -/

theorem names_set (s : Store) (i j : ScopeId) (name : Text) (v : Value) (hj : j < s.size) :
    (s.set i name v).names j =
      if i = j ∧ name ∉ s.names j then s.names j ++ [name] else s.names j := by
  obtain ⟨scope, hs⟩ : ∃ scope, s.get? j = some scope := ⟨_, Array.getElem?_eq_getElem hj⟩
  unfold names
  rw [get?_set, hs]
  by_cases hij : i = j
  · by_cases hname : name ∈ scope.names
    · simp [hij, hname, Scope.names_set]
    · simp [hij, hname, Scope.names_set]
  · simp [hij]

theorem grows_set (s : Store) (i : ScopeId) (name : Text) (v : Value)
    (hw : name ∉ s.names i → writable i) : s.Grows writable (s.set i name v) where
  size := Nat.le_of_eq (size_set s i name v).symm
  outer j _ := outer?_set s i j name v
  names_prefix j hj := by
    rw [names_set s i j name v hj]
    split
    · exact List.prefix_append _ _
    · exact List.prefix_rfl
  names_eq j hj hj' := by
    rw [names_set s i j name v hj, if_neg]
    rintro ⟨rfl, hname⟩
    exact hj' (hw hname)

theorem mem_setBinding {b : Text × Value} {bs : List (Text × Value)}
    (h : b ∈ Scope.setBinding name v bs) : b.2 = v ∨ b ∈ bs := by
  induction bs with
  | nil =>
    cases List.mem_singleton.mp h
    exact .inl rfl
  | cons c rest ih =>
    obtain ⟨n, w⟩ := c
    unfold Scope.setBinding at h
    split at h
    · rcases List.mem_cons.mp h with rfl | h
      · exact .inl rfl
      · exact .inr (List.mem_cons_of_mem _ h)
    · rcases List.mem_cons.mp h with rfl | h
      · exact .inr List.mem_cons_self
      · exact (ih h).imp_right (List.mem_cons_of_mem _)

theorem ValuesAre.set {P : Value → Prop} (h : s.ValuesAre P) (i : ScopeId) (name : Text)
    (hv : P v) : (s.set i name v).ValuesAre P := by
  intro j scope hs b hb
  rw [get?_set] at hs
  split at hs
  · obtain ⟨old, hold, rfl⟩ := Option.map_eq_some_iff.mp hs
    rcases mem_setBinding hb with hb | hb
    · exact hb ▸ hv
    · exact h j old hold b hb
  · exact h j scope hs b hb

theorem WellFormed.set (h : s.WellFormed) (i : ScopeId) (name : Text) (hv : v.ValidIn s.size) :
    (s.set i name v).WellFormed where
  size_pos := by
    rw [size_set]
    exact h.size_pos
  global := by
    rw [outer?_set, h.global]
  inner j hpos hj := by
    unfold Inside
    rw [outer?_set]
    exact h.inner j hpos (by rwa [size_set] at hj)
  bindings := by
    rw [size_set]
    exact ValuesAre.set h.bindings i name hv

/-- An assignment adds a name in the global scope only. -/
theorem WellFormed.grows_update (h : s.WellFormed) (hi : i < s.size) (name : Text) (v : Value)
    (hw : writable 0) : s.Grows writable (s.update i name v) := by
  unfold update
  cases ho : s.owner? i name with
  | some o =>
    -- the owner binds the name already
    refine grows_set s o name v fun hname => absurd ?_ hname
    exact mem_names_iff.mpr (List.find?_some (p := (s.binds · name)) ho)
  | none =>
    rw [Option.getD_none, h.rooted.globalOf_eq hi]
    exact grows_set s 0 name v fun _ => hw

theorem WellFormed.update (h : s.WellFormed) (i : ScopeId) (name : Text) (hv : v.ValidIn s.size) :
    (s.update i name v).WellFormed :=
  h.set _ name hv

end Store

end Treewalk
