import Treewalk.Expr.Basic

/-!
# Equality of expressions

Expressions are compared node by node. The comparison is decidable equality: it holds exactly of
equal trees (`Expr.same_iff`).
-/

namespace Treewalk

mutual

/-- Whether two expressions are the same tree. -/
def Expr.same : Expr → Expr → Bool
  | .literal v, .literal w => v.same w
  | .var x, .var y => x == y
  | .print a, .print b => a.same b
  | .binop op a b, .binop op' a' b' => op == op' && a.same a' && b.same b'
  | .cond c t e, .cond c' t' e' => c.same c' && Expr.sameBlock t t' && Expr.sameBlock e e'
  | .loop c b, .loop c' b' => c.same c' && Expr.sameBlock b b'
  | .seq a b, .seq a' b' => a.same a' && b.same b'
  | .decl x a, .decl y b => x == y && a.same b
  | .assign x a, .assign y b => x == y && a.same b
  | .func ps b, .func ps' b' => ps == ps' && Expr.sameBlock b b'
  | .call f as, .call f' as' => f.same f' && Expr.sameList as as'
  | _, _ => false

/-- Whether two values are the same. -/
def Value.same : Value → Value → Bool
  | .int m, .int n => m == n
  | .bool a, .bool b => a == b
  | .null, .null => true
  | .closure ps b s, .closure ps' b' s' => ps == ps' && Expr.sameBlock b b' && s == s'
  | _, _ => false

/-- Whether two blocks are the same. -/
def Expr.sameBlock : Option Expr → Option Expr → Bool
  | none, none => true
  | some a, some b => a.same b
  | _, _ => false

/-- Whether two lists of expressions are the same. -/
def Expr.sameList : List Expr → List Expr → Bool
  | [], [] => true
  | a :: as, b :: bs => a.same b && Expr.sameList as bs
  | _, _ => false

end

mutual

/-- Two expressions are the same exactly if they are equal. -/
theorem Expr.same_iff (a b : Expr) : a.same b = true ↔ a = b := by
  cases a <;> cases b <;>
    simp [Expr.same, Expr.same_iff, Value.same_iff, Expr.sameBlock_iff, Expr.sameList_iff,
      and_assoc]
termination_by structural a

theorem Value.same_iff (a b : Value) : a.same b = true ↔ a = b := by
  cases a <;> cases b <;> simp [Value.same, Expr.sameBlock_iff, and_assoc]
termination_by structural a

theorem Expr.sameBlock_iff (a b : Option Expr) : Expr.sameBlock a b = true ↔ a = b := by
  cases a <;> cases b <;> simp [Expr.sameBlock, Expr.same_iff]
termination_by structural a

theorem Expr.sameList_iff (as bs : List Expr) : Expr.sameList as bs = true ↔ as = bs := by
  cases as <;> cases bs <;> simp [Expr.sameList, Expr.same_iff, Expr.sameList_iff]
termination_by structural as

end

instance : DecidableEq Expr := fun a b => decidable_of_iff _ (Expr.same_iff a b)

instance : DecidableEq Value := fun a b => decidable_of_iff _ (Value.same_iff a b)

end Treewalk
