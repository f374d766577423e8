import Treewalk.Proofs.Scoping.Store
import Treewalk.Proofs.Syntax.Within

/-!
# The scopes that code can see

Evaluation comes to scopes in three ways: outwards from a scope, through a closure that a scope
binds, and through a closure that stands as a literal in an expression. `Store.Sees` collects all
scopes that can be reached so from some given ones. If a store is well formed and the given scopes
exist, so do all that are seen (`Store.Sees.lt_size`).
-/

namespace Treewalk

/-- Whether a closure that was made in a scope stands as a literal in an expression, also in the
body of a function or of such a closure. -/
inductive Expr.Captures : Expr → ScopeId → Prop where
  | here {params b i} : Captures (.literal (.closure params b i)) i
  | inside {p e i} : p.Within e → Captures p i → Captures e i

/-- Whether a value is a closure that was made in a scope, or holds such a closure in its body. -/
def Value.Captures (v : Value) (i : ScopeId) : Prop := (Expr.literal v).Captures i

/-- Whether a scope can be reached from some given ones: outwards, or through a closure that a
scope binds. -/
inductive Store.Sees (s : Store) (given : ScopeId → Prop) : ScopeId → Prop where
  | given {i} : given i → Sees s given i
  | outer {i o} : Sees s given i → s.outer? i = some o → Sees s given o
  | bound {i scope b j} : Sees s given i → s.get? i = some scope → b ∈ scope.bindings →
    b.2.Captures j → Sees s given j

/-- The scopes that an evaluation starts from: its own, and those that its expression captures. -/
def Expr.Starts (e : Expr) (scope : ScopeId) (i : ScopeId) : Prop := i = scope ∨ e.Captures i

/-- What an expression captures, all that it lies within captures. -/
theorem Expr.hereditary_captures (R : ScopeId → Prop) :
    Expr.Hereditary fun e => ∀ i, e.Captures i → R i :=
  fun hp h i hi => h i (.inside hp hi)

/-- Expressions without closures as literals capture nothing. -/
theorem Expr.PlainLiterals.not_captures {e : Expr} (h : e.PlainLiterals) (i : ScopeId) :
    ¬e.Captures i := by
  intro hc
  induction hc with
  | here => exact h.1
  | inside hp _ ih => exact ih (Expr.hereditary_everywhere Expr.NoClosure hp h)

/-- A valid value captures no scope but its own. -/
theorem Value.ValidIn.lt_of_captures {n : Nat} {v : Value} (h : v.ValidIn n) {i : ScopeId}
    (hc : v.Captures i) : i < n := by
  cases hc with
  | here => exact h.1
  | inside hp hc =>
    cases hp with
    | child hp => cases hp
    | closure => exact absurd hc (Expr.PlainLiterals.not_captures h.2 i)

/-- In a well-formed store all scopes exist that are seen from scopes that do. -/
theorem Store.Sees.lt_size {s : Store} (hs : s.WellFormed) {given : ScopeId → Prop}
    (hgiven : ∀ i, given i → i < s.size) {i : ScopeId} (h : s.Sees given i) : i < s.size := by
  induction h with
  | given hi => exact hgiven _ hi
  | outer _ ho ih => exact Nat.lt_trans (hs.rooted.lt_of_inside ho) ih
  | bound _ hscope hb hc _ => exact (hs.bindings _ _ hscope _ hb).lt_of_captures hc

end Treewalk
