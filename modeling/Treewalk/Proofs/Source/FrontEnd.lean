import Treewalk.Proofs.Syntax.WellFormed

/-!
# Expressions that come from source

What a front end for the source form yields (`Expr.FromSource`). Names are identifiers of ASCII that
have no meaning of their own. A chain stands at the top, as a block, or inside such a chain; so no
part of a node but a block or a part of a chain is a chain. What is called is neither a declaration
nor an assignment.
-/

namespace Treewalk

namespace Source

/-- A character with which a name starts. -/
def isNameStart (c : Char) : Bool := c.isAlpha || c = '_' || c = '$'

/-- A character of a name. -/
def isNameChar (c : Char) : Bool := isNameStart c || c.isDigit

/-- Whether a text starts like a name. -/
def startsName (t : Text) : Bool := t.head?.any (·.isCharWith isNameStart)

/-- The words with a meaning of their own. -/
def reserved : List Text :=
  ["var", "if", "else", "while", "function", "print", "true", "false", "null"]

/-- An identifier of ASCII that may name a variable. -/
structure IsName (name : Text) : Prop where
  start : startsName name = true
  chars : ∀ p ∈ name, p.isCharWith isNameChar = true
  not_reserved : name ∉ reserved

instance (name : Text) : Decidable (IsName name) :=
  decidable_of_iff (startsName name = true ∧ (∀ p ∈ name, p.isCharWith isNameChar = true) ∧
      ∀ word ∈ reserved, word ≠ name)
    ⟨fun h => ⟨h.1, h.2.1, fun hmem => h.2.2 name hmem rfl⟩,
      fun h => ⟨h.start, h.chars, fun _ hword heq => h.not_reserved (heq ▸ hword)⟩⟩

end Source

namespace Expr

/-- Whether an expression is no chain of several statements. -/
def IsSingle : Expr → Prop
  | .seq .. => False
  | _ => True

/-- Whether an expression may be called in source. -/
def IsCallable : Expr → Prop
  | .seq .. | .decl .. | .assign .. => False
  | _ => True

/-- What a node owes beside its parts if it comes from source. -/
def SourceNode : Expr → Prop
  | .var name => Source.IsName name
  | .print arg => arg.IsSingle
  | .binop _ left right => left.IsSingle ∧ right.IsSingle
  | .cond test _ _ | .loop test _ => test.IsSingle
  | .decl name init => Source.IsName name ∧ init.IsSingle
  | .assign name rhs => Source.IsName name ∧ rhs.IsSingle
  | .func params _ => ∀ p ∈ params, Source.IsName p
  | .call callee args => callee.IsCallable ∧ ∀ arg ∈ args, arg.IsSingle
  | .literal _ | .seq .. => True

/-- Whether an expression has the shape of those that come from source. -/
def FromSource (e : Expr) : Prop := e.Everywhere SourceNode

theorem IsCallable.isSingle {e : Expr} (h : e.IsCallable) : e.IsSingle := by
  cases e <;> first | exact h | trivial

end Expr

end Treewalk
