import Treewalk.Expr.Equality

/-!
# Scopes and the store

A scope binds names to values, in the order in which the names were first bound, and refers to at
most one outer scope. The store holds all scopes; a scope is named by its index and never removed.
Outer scopes come before the scopes inside them, so a chain of scopes is walked in finitely many
steps: the walk stops at a reference that does not go down.

A name is looked up along the chain from a scope to its global scope. An assignment changes the
nearest binding of the name, and where there is none it makes one in the global scope. A declaration
binds the name in the scope itself and is refused if the scope binds it already.
-/

namespace Treewalk

/-- A scope. -/
structure Scope where
  outer : Option ScopeId
  bindings : List (Text × Value)
  deriving DecidableEq

namespace Scope

/-- The value bound to a name in this scope. -/
def find? (s : Scope) (name : Text) : Option Value := s.bindings.lookup name

/-- Whether a name is bound in this scope. -/
def binds (s : Scope) (name : Text) : Bool := (s.find? name).isSome

/-- The names of this scope, in the order in which they were first bound. -/
def names (s : Scope) : List Text := s.bindings.map (·.1)

/-- The form in which reports show a scope: its names, and whether there is a scope around it. -/
def shown (s : Scope) : Text :=
  "<Environment bindings=[" ++ Text.join ", " s.names ++ "]" ++
    (if s.outer.isSome then ", outer=#ID" else "") ++ ">"

/-- The bindings after a name has been set: an old binding keeps its place. -/
def setBinding (name : Text) (v : Value) : List (Text × Value) → List (Text × Value)
  | [] => [(name, v)]
  | (n, w) :: rest => if n = name then (n, v) :: rest else (n, w) :: setBinding name v rest

/-- Binds a name in this scope, over an old binding if there is one. -/
def set (s : Scope) (name : Text) (v : Value) : Scope :=
  { s with bindings := setBinding name v s.bindings }

@[simp]
theorem outer_set (s : Scope) (name : Text) (v : Value) : (s.set name v).outer = s.outer := rfl

theorem lookup_setBinding (name other : Text) (v : Value) (bs : List (Text × Value)) :
    (setBinding name v bs).lookup other = if other = name then some v else bs.lookup other := by
  induction bs with
  | nil =>
    by_cases h : other = name
    · simp [setBinding, h]
    · have h' : (other == name) = false := by simpa using h
      simp [setBinding, List.lookup_cons, h, h']
  | cons b rest ih =>
    obtain ⟨n, w⟩ := b
    by_cases hn : n = name
    · subst hn
      by_cases h : other = n
      · simp [setBinding, h]
      · have h' : (other == n) = false := by simpa using h
        simp [setBinding, List.lookup_cons, h, h']
    · by_cases h : other = n
      · subst h
        simp [setBinding, hn]
      · have h' : (other == n) = false := by simpa using h
        simp [setBinding, hn, List.lookup_cons, h', ih]

/-- A scope after a name has been set binds it to the new value and all others as before. -/
@[simp]
theorem find?_set (s : Scope) (name other : Text) (v : Value) :
    (s.set name v).find? other = if other = name then some v else s.find? other :=
  lookup_setBinding name other v s.bindings

/-- Setting a name appends it to the names unless it is there. -/
theorem names_set (s : Scope) (name : Text) (v : Value) :
    (s.set name v).names = if name ∈ s.names then s.names else s.names ++ [name] := by
  suffices h : ∀ bs : List (Text × Value), (setBinding name v bs).map (·.1) =
      if name ∈ bs.map (·.1) then bs.map (·.1) else bs.map (·.1) ++ [name] from h s.bindings
  intro bs
  induction bs with
  | nil => simp [setBinding]
  | cons b rest ih =>
    obtain ⟨n, w⟩ := b
    by_cases hn : n = name
    · simp [setBinding, hn]
    · have hn' : ¬name = n := fun h => hn h.symm
      simp only [setBinding, hn, if_false, List.map_cons, ih, List.mem_cons, hn', false_or]
      split <;> simp

end Scope

/-- All scopes of a run. -/
structure Store where
  scopes : Array Scope

namespace Store

/-- The store with one empty scope, the global one. -/
def initial : Store := ⟨#[⟨none, []⟩]⟩

instance : Inhabited Store := ⟨initial⟩

/-- The number of scopes. -/
def size (s : Store) : Nat := s.scopes.size

/-- The scope with an index. -/
def get? (s : Store) (i : ScopeId) : Option Scope := s.scopes[i]?

/-- The scope outside a scope. -/
def outer? (s : Store) (i : ScopeId) : Option ScopeId := (s.get? i).bind (·.outer)

/-- A new empty scope. -/
def alloc (s : Store) (outer : Option ScopeId) : ScopeId × Store :=
  (s.scopes.size, ⟨s.scopes.push ⟨outer, []⟩⟩)

/-- The value that a scope itself binds to a name. -/
def local? (s : Store) (i : ScopeId) (name : Text) : Option Value :=
  (s.get? i).bind (·.find? name)

/-- Whether a scope itself binds a name. -/
def binds (s : Store) (i : ScopeId) (name : Text) : Bool := (s.local? i name).isSome

/-- Binds a name in a scope, over an old binding if there is one. -/
def set (s : Store) (i : ScopeId) (name : Text) (v : Value) : Store :=
  ⟨s.scopes.modify i (·.set name v)⟩

/-- The scopes from a scope outwards, the scope itself first. -/
def chain (s : Store) (i : ScopeId) : List ScopeId :=
  i :: match s.outer? i with
    | none => []
    | some o => if o < i then s.chain o else []
termination_by i

/-- The number of scopes outside a scope. -/
def depth (s : Store) (i : ScopeId) : Nat := (s.chain i).length - 1

/-- The outermost scope of the chain of a scope. -/
def globalOf (s : Store) (i : ScopeId) : ScopeId := (s.chain i).getLast?.getD i

/-- The nearest scope of the chain that binds a name. -/
def owner? (s : Store) (i : ScopeId) (name : Text) : Option ScopeId :=
  (s.chain i).find? (s.binds · name)

/-- The value of a name as seen from a scope; a name that no scope binds is null. -/
def resolve (s : Store) (i : ScopeId) (name : Text) : Value :=
  ((s.owner? i name).bind (s.local? · name)).getD .null

/-- Assigns to the nearest binding of a name, or makes one in the global scope. -/
def update (s : Store) (i : ScopeId) (name : Text) (v : Value) : Store :=
  s.set ((s.owner? i name).getD (s.globalOf i)) name v

@[simp]
theorem size_set (s : Store) (i : ScopeId) (name : Text) (v : Value) :
    (s.set i name v).size = s.size := by
  simp [set, size]

theorem get?_set (s : Store) (i j : ScopeId) (name : Text) (v : Value) :
    (s.set i name v).get? j = if i = j then (s.get? j).map (·.set name v) else s.get? j := by
  simp [set, get?, Array.getElem?_modify]

/-- Setting a name changes no reference to an outer scope. -/
@[simp]
theorem outer?_set (s : Store) (i j : ScopeId) (name : Text) (v : Value) :
    (s.set i name v).outer? j = s.outer? j := by
  unfold outer?
  rw [get?_set]
  split <;> cases s.get? j <;> simp

/-- Setting a name changes no chain of scopes. -/
@[simp]
theorem chain_set (s : Store) (i j : ScopeId) (name : Text) (v : Value) :
    (s.set i name v).chain j = s.chain j := by
  induction j using Nat.strongRecOn with
  | _ j ih =>
    rw [chain, chain, outer?_set]
    cases s.outer? j with
    | none => rfl
    | some o =>
      by_cases h : o < j
      · simp [h, ih o h]
      · simp [h]

/-- What a scope binds after a name has been set in a scope of the store. -/
theorem local?_set (s : Store) (i j : ScopeId) (name other : Text) (v : Value) (h : i < s.size) :
    (s.set i name v).local? j other =
      if i = j ∧ other = name then some v else s.local? j other := by
  unfold local?
  rw [get?_set]
  by_cases hij : i = j
  · subst hij
    obtain ⟨scope, hs⟩ : ∃ scope, s.get? i = some scope := by
      simp only [get?, size] at *
      exact ⟨_, Array.getElem?_eq_getElem h⟩
    simp [hs]
  · simp [hij]

end Store

end Treewalk
