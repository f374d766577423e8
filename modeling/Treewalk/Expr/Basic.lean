import Treewalk.Op
import Treewalk.Text.CodePoint

/-!
# Expressions and values

An expression is a node of the tree that is evaluated. A value is what evaluation gives: a 32-bit
integer, a truth value, null, or a closure. The two types refer to each other, because a closure
holds the body of a function and a literal holds a value.

A scope is named by its index in the store (`Treewalk.Store`), so a closure refers to the scope in
which it was made by that index. Two closures are equal if they have the same parameters, the same
body and the same scope.

The blocks of `if`, `while` and functions may be empty, which is `none`. A list of statements is a
chain of `seq` nodes nested to the left.
-/

namespace Treewalk

/-- The index of a scope in the store. -/
abbrev ScopeId := Nat

mutual

/-- An expression. -/
inductive Expr where
  /-- A constant. -/
  | literal (value : Value)
  /-- A reference to a variable. -/
  | var (name : Text)
  /-- Prints the value of an expression. -/
  | print (arg : Expr)
  /-- A binary operation. -/
  | binop (op : Op) (left right : Expr)
  /-- A choice; a missing branch is an empty block. -/
  | cond (test : Expr) (thn els : Option Expr)
  /-- A loop. -/
  | loop (test : Expr) (body : Option Expr)
  /-- One expression after another. -/
  | seq (first second : Expr)
  /-- Declares a variable in the current scope. -/
  | decl (name : Text) (init : Expr)
  /-- Assigns to the nearest variable of that name. -/
  | assign (name : Text) (rhs : Expr)
  /-- A function. -/
  | func (params : List Text) (body : Option Expr)
  /-- Calls a function. -/
  | call (callee : Expr) (args : List Expr)

/-- A value. -/
inductive Value where
  | int (n : Int)
  | bool (b : Bool)
  | null
  /-- A function together with the scope in which it was made. -/
  | closure (params : List Text) (body : Option Expr) (scope : ScopeId)

end

instance : Inhabited Value := ⟨.null⟩

instance : Inhabited Expr := ⟨.literal .null⟩

namespace Value

/-- The least integer of the language, `-2^31`. -/
def intMin : Int := -0x80000000

/-- The greatest integer of the language, `2^31 - 1`. -/
def intMax : Int := 0x7FFFFFFF

/-- The integer of the 32-bit range that is congruent to `n` modulo `2^32`. -/
def wrap (n : Int) : Int := Int.bmod n 0x100000000

/-- Wrapping gives an integer of the range. -/
theorem wrap_mem (n : Int) : intMin ≤ wrap n ∧ wrap n ≤ intMax := by
  have low := Int.le_bmod (x := n) (m := 0x100000000) (by decide)
  have high := Int.bmod_lt (x := n) (m := 0x100000000) (by decide)
  unfold wrap intMin intMax
  omega

/-- Wrapping leaves the integers of the range alone. -/
theorem wrap_of_mem {n : Int} (h : intMin ≤ n ∧ n ≤ intMax) : wrap n = n := by
  unfold intMin intMax at h
  exact Int.bmod_eq_of_le (by omega) (by omega)

/-- The value of an arbitrary integer. -/
def ofInt (n : Int) : Value := .int (wrap n)

/-- The kind of a value, as messages name it. -/
def kind : Value → String
  | int _ => "int"
  | bool _ => "bool"
  | null => "null"
  | closure .. => "closure"

end Value

namespace Expr

/-- The statements of a chain in the order of the source: the left spine of the `seq` nodes. -/
def statements (e : Expr) : List Expr :=
  go e []
where
  /-- Walks down the left spine; `after` holds the statements that follow. -/
  go : Expr → List Expr → List Expr
    | .seq first second, after => go first (second :: after)
    | e, after => e :: after

/-- Folds statements into a chain that is nested to the left. -/
def ofStatements? : List Expr → Option Expr
  | [] => none
  | e :: es => some (es.foldl .seq e)

theorem statements.go_eq (e : Expr) (after : List Expr) : go e after = go e [] ++ after := by
  induction e using Expr.rec (motive_2 := fun _ => True) (motive_3 := fun _ => True)
    (motive_4 := fun _ => True) generalizing after with
  | seq first second ih _ =>
    rw [go, ih (second :: after), go, ih [second]]
    simp
  | _ => trivial

/-- The statements of a longer chain. -/
@[simp]
theorem statements_seq (first second : Expr) :
    (Expr.seq first second).statements = first.statements ++ [second] := by
  rw [statements, statements.go, statements.go_eq]
  rfl

end Expr

end Treewalk
