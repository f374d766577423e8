import Treewalk.Proofs.Machine.Invariant
import Treewalk.Proofs.Scoping.Store
import Treewalk.Proofs.SideBySide.Same

/-!
# Names that no code writes

A name is written where it is declared or assigned. If neither an expression nor the body of any
closure in the store writes a name, then no scope that exists binds the name to anything new, or
for the first time, while the expression is evaluated (`Run.local?_of_unwritten`). The name may
still be that of a parameter: a call binds its parameters in a scope that it makes.

The code that is run is not only the expression. A call takes up the body of whatever closure it
finds, and so the invariant of the evaluation (`Invariant.unwritten`) says of the bodies of all
closures, too, that they do not write the name.
-/

namespace Treewalk

/-- Whether a node neither declares nor assigns a name. -/
def Expr.NotWriting (x : Text) : Expr → Prop
  | .decl name _ | .assign name _ => name ≠ x
  | _ => True

/-- Whether a name is neither declared nor assigned inside an expression: the bodies of its
functions are included, and those of the closures that its literals hold. -/
def Expr.NeverWrites (x : Text) (e : Expr) : Prop := e.Everywhere (Expr.NotWriting x)

open Treewalk.Expr (NeverWrites)

/-- Binding a name changes no other name, and nothing in another scope. -/
theorem Store.local?_set_of_ne (s : Store) {i j : ScopeId} {name other : Text}
    (h : i ≠ j ∨ other ≠ name) (v : Value) :
    (s.set i name v).local? j other = s.local? j other := by
  unfold local?
  rw [get?_set]
  by_cases hij : i = j
  · have hother : other ≠ name := h.resolve_left fun hne => hne hij
    cases s.get? j with
    | none => simp
    | some scope => simp [hij, hother]
  · rw [if_neg hij]

/-- A new scope binds nothing. -/
theorem Store.local?_alloc (s : Store) (outer : Option ScopeId) {i : ScopeId} (hi : i < s.size)
    (name : Text) : (s.alloc outer).2.local? i name = s.local? i name := by
  unfold local?
  rw [get?_alloc, if_neg (Nat.ne_of_lt hi)]

/-- Whether a store is a later one in which a name is bound as before, in all scopes of before, and
in which no body of a closure writes the name. -/
structure Store.Spares (s : Store) (x : Text) (s' : Store) : Prop where
  size : s.size ≤ s'.size
  same : ∀ i, i < s.size → s'.local? i x = s.local? i x
  bodies : s'.BodiesAre (NeverWrites x)

namespace Store.Spares

variable {s s' : Store} {x name : Text} {v : Value}

theorem refl (h : s.BodiesAre (NeverWrites x)) : s.Spares x s :=
  ⟨Nat.le_refl _, fun _ _ => rfl, h⟩

/-- A binding in a new scope, or of another name. -/
theorem set (h : s.Spares x s') {scope : ScopeId} (hne : s.size ≤ scope ∨ name ≠ x)
    (hv : v.BodyIs (NeverWrites x)) : s.Spares x (s'.set scope name v) where
  size := by
    rw [size_set]
    exact h.size
  same i hi := by
    rw [local?_set_of_ne, h.same i hi]
    rcases hne with hle | hne
    · exact .inl (Nat.ne_of_gt (Nat.lt_of_lt_of_le hi hle))
    · exact .inr fun heq => hne heq.symm
  bodies := ValuesAre.set h.bodies scope name hv

theorem alloc (h : s.Spares x s') (outer : Option ScopeId) : s.Spares x (s'.alloc outer).2 where
  size := by
    rw [size_alloc]
    exact Nat.le_succ_of_le h.size
  same i hi := by rw [local?_alloc s' outer (Nat.lt_of_lt_of_le hi h.size), h.same i hi]
  bodies := ValuesAre.alloc h.bodies outer

end Store.Spares

/-! ## The invariant -/

/-- What evaluation keeps of a store if no code writes a name. Only in scopes that are made for
calls may the name be bound, as that of a parameter. -/
def Invariant.unwritten (x : Text) (s : Store) : Invariant where
  holds m := s.Spares x m.store
  expr := NeverWrites x
  value v := v.BodyIs (NeverWrites x)
  inner i := s.size ≤ i

theorem Value.bodyIs_of_everywhere {P : Expr → Prop} {params : List Text} {b : Option Expr}
    (h : Expr.EverywhereBlock P b) (scope : ScopeId) :
    (Value.closure params b scope).BodyIs (Expr.Everywhere P) := by
  cases b with
  | none => exact trivial
  | some b => exact h

theorem Invariant.lawful_unwritten (x : Text) (s : Store) : (unwritten x s).Lawful where
  hereditary := Expr.hereditary_everywhere _
  literal {v} h := by
    cases v with
    | closure => exact Value.bodyIs_of_everywhere h.2 _
    | int | bool | null => exact trivial
  func scope h := Value.bodyIs_of_everywhere h.2 scope
  body h := h
  null := trivial
  computed {op a b v} h := by
    cases Op.computes_iff.mpr h <;> exact trivial
  resolve scope name hm := Store.ValuesAre.resolve hm.bodies trivial scope name
  look _ hm := hm
  note _ hm := hm
  writeLine _ hm := hm
  declare _ hm he hv := hm.set (.inr he.self) hv
  update _ hm he hv := hm.set (.inr he.self) hv
  newScope outer hm := ⟨hm.size, hm.alloc (some outer)⟩
  bind _ hm hscope hv := hm.set (.inl hscope) hv
  push _ _ hm _ _ := hm
  pop hm := hm

namespace Run

/-- **A name that no code writes keeps its values.** However an evaluation ends, each scope of
before binds the name to the same value as before, or still does not bind it; and the code that is
left in the store and in the result does not write the name either. -/
theorem local?_of_unwritten {x : Text} {e : Expr} (he : e.NeverWrites x) {m m' : Machine}
    (hm : m.store.BodiesAre (NeverWrites x)) {rounds depth : Nat} {scope : ScopeId}
    {outcome : Outcome Value} (h : eval rounds depth e scope m = (outcome, m')) :
    (∀ i, i < m.store.size → m'.store.local? i x = m.store.local? i x) ∧
      m'.store.BodiesAre (NeverWrites x) ∧ ∀ v, outcome = .done v → v.BodyIs (NeverWrites x) := by
  have hkept := (Invariant.lawful_unwritten x m.store).maintains_eval rounds depth e scope he m
    (.refl hm)
  rw [h] at hkept
  exact ⟨hkept.1.same, hkept.1.bodies, hkept.2⟩

/-- A function that was made before is called with the name as that of its parameter; it assigns
another name and fails then. -/
theorem local?_of_unwritten_parameter :
    let x : Text := "x"
    let body : Expr := .seq (.assign "y" (.var x)) (.binop .div (.var x) (.literal (.int 0)))
    let e : Expr := .call (.var "f") [.literal (.int 7)]
    let s : Store := ⟨#[⟨none, [(x, .int 1), ("f", .closure [x] (some body) 0)]⟩, ⟨some 0, []⟩]⟩
    let m := { Machine.initial 10 false with store := s }
    let m' := (eval 5 5 e 1 m).2
    e.NeverWrites x ∧ s.BodiesAre (NeverWrites x) ∧
      ((eval 5 5 e 1 m).1 matches .failed (.divisionByZero .div 7)) ∧
      m'.store.local? 2 x = some (.int 7) ∧ m'.store.local? 0 "y" = some (.int 7) ∧
      m'.store.local? 0 x = some (.int 1) ∧ m'.store.local? 1 x = none := by
  intro x body e s m m'
  have hbody : body.NeverWrites x := by
    refine ⟨trivial, ⟨?_, trivial⟩, trivial, trivial, trivial, trivial⟩
    exact fun h => absurd h (by decide)
  have he : e.NeverWrites x := ⟨trivial, trivial, ⟨trivial, trivial⟩, trivial⟩
  have hs : s.BodiesAre (NeverWrites x) := by
    rintro (_ | _ | i) scope hscope b hb
    · cases hscope
      rcases List.mem_pair.mp hb with rfl | rfl
      · exact trivial
      · exact hbody
    · cases hscope
      cases hb
    · cases hscope
  have heval : eval 5 5 e 1 m = ((eval 5 5 e 1 m).1, m') := rfl
  obtain ⟨hsame, -, -⟩ := local?_of_unwritten he hs heval
  exact ⟨he, hs, by decide +kernel, by decide +kernel, by decide +kernel, hsame 0 (by decide),
    hsame 1 (by decide)⟩

end Run

end Treewalk
