import Mathlib.Data.List.Forall2
import Treewalk.Machine.Fault
import Treewalk.Proofs.Scoping.Store

/-!
# Data that correspond

Two evaluations that go side by side work on two stores. A `Likeness` says which expressions and
which scopes of the one correspond to which of the other; values, scopes and stores correspond
accordingly. Values that correspond differ in the bodies and the scopes of closures only.

If corresponding scopes stand in the same order, whatever is found in one store through a chain of
scopes corresponds to what is found in the other (`Stores.resolve`), and the stores still
correspond after the same change in both (`Stores.set`, `Stores.alloc`).
-/

namespace Treewalk

/-! ## Lists and optional data -/

section

variable {α β γ δ : Type} {R : α → β → Prop} {S : γ → δ → Prop} {x : Option α} {y : Option β}

theorem rel_bind {f : α → Option γ} {g : β → Option δ} (h : Option.Rel R x y)
    (hfg : ∀ a b, R a b → Option.Rel S (f a) (g b)) : Option.Rel S (x.bind f) (y.bind g) := by
  cases h with
  | none => exact .none
  | some hab => exact hfg _ _ hab

theorem rel_getD {a : α} {b : β} (h : Option.Rel R x y) (hab : R a b) :
    R (x.getD a) (y.getD b) := by
  cases h with
  | none => exact hab
  | some h => exact h

theorem exists_of_forall₂_of_mem {xs : List α} {ys : List β} (h : List.Forall₂ R xs ys) {a : α}
    (ha : a ∈ xs) : ∃ b, R a b := by
  induction h with
  | nil => cases ha
  | cons hab _ ih =>
    rcases List.mem_cons.mp ha with rfl | ha
    · exact ⟨_, hab⟩
    · exact ih ha

theorem map_eq_of_forall₂ {f : α → γ} {g : β → γ} {xs : List α} {ys : List β}
    (h : List.Forall₂ R xs ys) (hfg : ∀ a b, R a b → f a = g b) : xs.map f = ys.map g := by
  induction h with
  | nil => rfl
  | cons hab _ ih => rw [List.map_cons, List.map_cons, hfg _ _ hab, ih]

theorem isSome_eq_of_rel (h : Option.Rel R x y) : x.isSome = y.isSome := by
  cases h <;> rfl

end

/-! ## Correspondence -/

/-- Which expressions and which scopes of two evaluations correspond. -/
structure Likeness where
  expr : Expr → Expr → Prop
  scope : ScopeId → ScopeId → Prop

namespace Likeness

variable (L : Likeness)

/-- Whether corresponding scopes stand in the same order. -/
def Ordered : Prop := ∀ {i i' o o'}, L.scope i i' → L.scope o o' → (o < i ↔ o' < i')

/-- Whether two values correspond. -/
inductive Values : Value → Value → Prop where
  | int (n : Int) : Values (.int n) (.int n)
  | bool (b : Bool) : Values (.bool b) (.bool b)
  | null : Values .null .null
  | closure (params : List Text) {b b' : Option Expr} {i i' : ScopeId} :
    Option.Rel L.expr b b' → L.scope i i' → Values (.closure params b i) (.closure params b' i')

/-- Whether two bindings have the same name and corresponding values. -/
def Bindings (b b' : Text × Value) : Prop := b.1 = b'.1 ∧ L.Values b.2 b'.2

/-- Whether two scopes lie in corresponding scopes and bind the same names, in the same order, to
corresponding values. -/
structure Scopes (s s' : Scope) : Prop where
  outer : Option.Rel L.scope s.outer s'.outer
  bindings : List.Forall₂ L.Bindings s.bindings s'.bindings

/-- Whether the corresponding scopes of two stores correspond, those still to come included. -/
structure Stores (s s' : Store) : Prop where
  scopes : ∀ i i', L.scope i i' → Option.Rel L.Scopes (s.get? i) (s'.get? i')
  fresh : ∀ n, L.scope (s.size + n) (s'.size + n)

/-- Whether two faults correspond. Only faults that evaluation raises do. -/
inductive Faults : Fault → Fault → Prop where
  | duplicateVariable (name : Text) : Faults (.duplicateVariable name) (.duplicateVariable name)
  | conditionNotBool (construct : Construct) {v v' : Value} : L.Values v v' →
    Faults (.conditionNotBool construct v) (.conditionNotBool construct v')
  | operandsNotInts (op : Op) {v v' w w' : Value} : L.Values v v' → L.Values w w' →
    Faults (.operandsNotInts op v w) (.operandsNotInts op v' w')
  | divisionByZero (op : Op) (n : Int) : Faults (.divisionByZero op n) (.divisionByZero op n)
  | notCallable (given : Text) : Faults (.notCallable given) (.notCallable given)

variable {L}

/-! ## Values and faults -/

namespace Values

variable {v v' : Value}

theorem text_eq (h : L.Values v v') : v.text = v'.text := by
  cases h <;> rfl

theorem kind_eq (h : L.Values v v') : v.kind = v'.kind := by
  cases h <;> rfl

theorem shown_eq (h : L.Values v v') : v.shown = v'.shown := by
  cases h <;> rfl

end Values

namespace Faults

variable {f f' : Fault}

theorem kind_eq (h : L.Faults f f') : f.kind = f'.kind := by
  cases h <;> rfl

theorem message_eq (h : L.Faults f f') : f.message = f'.message := by
  cases h with
  | conditionNotBool _ h => simp only [Fault.message, h.kind_eq]
  | operandsNotInts _ h h' => simp only [Fault.message, h.kind_eq, h'.kind_eq]
  | duplicateVariable | divisionByZero | notCallable => rfl

end Faults

/-! ## Scopes -/

theorem lookup_bindings {bs bs' : List (Text × Value)} (h : List.Forall₂ L.Bindings bs bs')
    (name : Text) : Option.Rel L.Values (bs.lookup name) (bs'.lookup name) := by
  induction h with
  | nil => exact .none
  | @cons b b' bs bs' hb _ ih =>
    obtain ⟨n, v⟩ := b
    obtain ⟨n', v'⟩ := b'
    obtain ⟨rfl : n = n', hv⟩ := hb
    rw [List.lookup_cons, List.lookup_cons]
    cases name == n with
    | true => exact .some hv
    | false => exact ih

theorem setBinding_bindings {bs bs' : List (Text × Value)} (h : List.Forall₂ L.Bindings bs bs')
    (name : Text) {v v' : Value} (hv : L.Values v v') :
    List.Forall₂ L.Bindings (Scope.setBinding name v bs) (Scope.setBinding name v' bs') := by
  induction h with
  | nil => exact .cons ⟨rfl, hv⟩ .nil
  | @cons b b' bs bs' hb hbs ih =>
    obtain ⟨n, w⟩ := b
    obtain ⟨n', w'⟩ := b'
    obtain ⟨rfl : n = n', hw⟩ := hb
    unfold Scope.setBinding
    split
    · exact .cons ⟨rfl, hv⟩ hbs
    · exact .cons ⟨rfl, hw⟩ ih

theorem Scopes.set {s s' : Scope} (h : L.Scopes s s') (name : Text) {v v' : Value}
    (hv : L.Values v v') : L.Scopes (s.set name v) (s'.set name v') :=
  ⟨h.outer, setBinding_bindings h.bindings name hv⟩

/-! ## Order -/

namespace Ordered

variable {i i' j j' : ScopeId}

/-- Corresponding scopes are the same on one side just if they are on the other. -/
theorem eq_iff (hL : L.Ordered) (hi : L.scope i i') (hj : L.scope j j') : i = j ↔ i' = j' := by
  have h₁ := hL hi hj
  have h₂ := hL hj hi
  rw [Nat.eq_iff_le_and_ge, Nat.eq_iff_le_and_ge, ← Nat.not_lt, ← Nat.not_lt, ← Nat.not_lt,
    ← Nat.not_lt, h₁, h₂]

end Ordered

/-! ## Stores -/

namespace Stores

variable {s s' : Store} {i i' : ScopeId} {v v' : Value}

theorem outer? (h : L.Stores s s') (hi : L.scope i i') :
    Option.Rel L.scope (s.outer? i) (s'.outer? i') :=
  rel_bind (h.scopes i i' hi) fun _ _ hs => hs.outer

theorem local? (h : L.Stores s s') (hi : L.scope i i') (name : Text) :
    Option.Rel L.Values (s.local? i name) (s'.local? i' name) :=
  rel_bind (h.scopes i i' hi) fun _ _ hs => lookup_bindings hs.bindings name

theorem binds_eq (h : L.Stores s s') (hi : L.scope i i') (name : Text) :
    s.binds i name = s'.binds i' name :=
  isSome_eq_of_rel (h.local? hi name)

/-- The scopes outwards from corresponding scopes correspond. -/
theorem chain (h : L.Stores s s') (hL : L.Ordered) (hi : L.scope i i') :
    List.Forall₂ L.scope (s.chain i) (s'.chain i') := by
  induction i using Nat.strongRecOn generalizing i' with
  | _ i ih =>
    rw [Store.chain, Store.chain]
    refine .cons hi ?_
    have houter := h.outer? hi
    generalize s.outer? i = o?, s'.outer? i' = o?' at houter
    cases houter with
    | none => exact .nil
    | @some o o' ho =>
      dsimp only
      by_cases hlt : o < i
      · rw [if_pos hlt, if_pos ((hL hi ho).mp hlt)]
        exact ih o hlt ho
      · rw [if_neg hlt, if_neg fun hlt' => hlt ((hL hi ho).mpr hlt')]
        exact .nil

theorem owner? (h : L.Stores s s') (hL : L.Ordered) (hi : L.scope i i') (name : Text) :
    Option.Rel L.scope (s.owner? i name) (s'.owner? i' name) := by
  unfold Store.owner?
  have hchain := h.chain hL hi
  generalize s.chain i = is, s'.chain i' = is' at hchain
  induction hchain with
  | nil => exact .none
  | @cons j j' js js' hj _ ih =>
    rw [List.find?_cons, List.find?_cons, h.binds_eq hj]
    cases s'.binds j' name with
    | true => exact .some hj
    | false => exact ih

theorem globalOf (h : L.Stores s s') (hL : L.Ordered) (hi : L.scope i i') :
    L.scope (s.globalOf i) (s'.globalOf i') := by
  unfold Store.globalOf
  have hchain := List.rel_reverse (h.chain hL hi)
  rw [List.getLast?_eq_head?_reverse, List.getLast?_eq_head?_reverse]
  generalize (s.chain i).reverse = is, (s'.chain i').reverse = is' at hchain
  cases hchain with
  | nil => exact hi
  | cons hj _ => exact hj

/-- The values of a name as seen from corresponding scopes correspond. -/
theorem resolve (h : L.Stores s s') (hL : L.Ordered) (hi : L.scope i i') (name : Text) :
    L.Values (s.resolve i name) (s'.resolve i' name) :=
  rel_getD (rel_bind (h.owner? hL hi name) fun _ _ ho => h.local? ho name) .null

/-- The scopes that an assignment changes correspond. -/
theorem target (h : L.Stores s s') (hL : L.Ordered) (hi : L.scope i i') (name : Text) :
    L.scope ((s.owner? i name).getD (s.globalOf i)) ((s'.owner? i' name).getD (s'.globalOf i')) :=
  rel_getD (h.owner? hL hi name) (h.globalOf hL hi)

theorem set (h : L.Stores s s') (hL : L.Ordered) (hi : L.scope i i') (name : Text)
    (hv : L.Values v v') : L.Stores (s.set i name v) (s'.set i' name v') where
  scopes j j' hj := by
    rw [Store.get?_set, Store.get?_set]
    by_cases hij : i = j
    · rw [if_pos hij, if_pos ((hL.eq_iff hi hj).mp hij)]
      have hscopes := h.scopes j j' hj
      generalize s.get? j = scope, s'.get? j' = scope' at hscopes
      cases hscopes with
      | none => exact .none
      | some hs => exact .some (hs.set name hv)
    · rw [if_neg hij, if_neg fun hij' => hij ((hL.eq_iff hi hj).mpr hij')]
      exact h.scopes j j' hj
  fresh n := by
    rw [Store.size_set, Store.size_set]
    exact h.fresh n

/-- A new scope in corresponding scopes. -/
theorem alloc (h : L.Stores s s') (hL : L.Ordered) {o o' : ScopeId} (ho : L.scope o o') :
    L.Stores (s.alloc (some o)).2 (s'.alloc (some o')).2 where
  scopes j j' hj := by
    rw [Store.get?_alloc, Store.get?_alloc]
    have hnew : j = s.size ↔ j' = s'.size := hL.eq_iff hj (h.fresh 0)
    by_cases hsize : j = s.size
    · rw [if_pos hsize, if_pos (hnew.mp hsize)]
      exact .some ⟨.some ho, .nil⟩
    · rw [if_neg hsize, if_neg fun hsize' => hsize (hnew.mpr hsize')]
      exact h.scopes j j' hj
  fresh n := by
    have hn := h.fresh (n + 1)
    rw [Store.size_alloc, Store.size_alloc]
    rwa [Nat.add_right_comm, Nat.add_assoc, Nat.add_right_comm s'.size, Nat.add_assoc s'.size]

end Stores

end Likeness

end Treewalk
