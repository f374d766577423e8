import Treewalk.Proofs.Syntax.Chain

/-!
# Well-formed expressions

`Expr.Everywhere P e` says that `P` holds of every expression inside `e`: of `e` itself, of its
parts, of the bodies of its functions, and of the bodies of the closures that its literals hold.

An expression is well formed if its literals are integers of the 32-bit range, truth values or null,
and if its names and parameter names are not empty. That only blocks may be missing needs no
condition, because no other part of an expression can be missing.
-/

namespace Treewalk

mutual

/-- Whether a property holds of every expression inside an expression. -/
def Expr.Everywhere (P : Expr → Prop) : Expr → Prop
  | .literal v => P (.literal v) ∧ v.Everywhere P
  | .var name => P (.var name)
  | .print arg => P (.print arg) ∧ arg.Everywhere P
  | .binop op left right =>
    P (.binop op left right) ∧ left.Everywhere P ∧ right.Everywhere P
  | .cond test thn els =>
    P (.cond test thn els) ∧ test.Everywhere P ∧ Expr.EverywhereBlock P thn ∧
      Expr.EverywhereBlock P els
  | .loop test body => P (.loop test body) ∧ test.Everywhere P ∧ Expr.EverywhereBlock P body
  | .seq first second => P (.seq first second) ∧ first.Everywhere P ∧ second.Everywhere P
  | .decl name init => P (.decl name init) ∧ init.Everywhere P
  | .assign name rhs => P (.assign name rhs) ∧ rhs.Everywhere P
  | .func params body => P (.func params body) ∧ Expr.EverywhereBlock P body
  | .call callee args => P (.call callee args) ∧ callee.Everywhere P ∧ Expr.EverywhereArgs P args

/-- Whether a property holds of every expression inside a value. -/
def Value.Everywhere (P : Expr → Prop) : Value → Prop
  | .closure _ body _ => Expr.EverywhereBlock P body
  | _ => True

/-- Whether a property holds of every expression inside a block. -/
def Expr.EverywhereBlock (P : Expr → Prop) : Option Expr → Prop
  | none => True
  | some body => body.Everywhere P

/-- Whether a property holds of every expression inside a list of arguments. -/
def Expr.EverywhereArgs (P : Expr → Prop) : List Expr → Prop
  | [] => True
  | arg :: args => arg.Everywhere P ∧ Expr.EverywhereArgs P args

end

namespace Expr

variable {P : Expr → Prop}

/-- What holds everywhere holds of the expression itself. -/
theorem Everywhere.self {e : Expr} (h : e.Everywhere P) : P e := by
  cases e <;> simp only [Everywhere] at h <;> first | exact h | exact h.1

/-- What holds everywhere holds everywhere in each statement of a chain. -/
theorem Everywhere.statements {e : Expr} (h : e.Everywhere P) :
    ∀ s ∈ e.statements, s.Everywhere P := by
  induction e using chainRec with
  | single e hs =>
    rw [hs]
    intro s hmem
    exact List.mem_singleton.mp hmem ▸ h
  | seq first second ih =>
    obtain ⟨_, hfirst, hsecond⟩ := h
    simp only [statements_seq, List.mem_append, List.mem_singleton]
    rintro s (hs | rfl)
    · exact ih hfirst s hs
    · exact hsecond

end Expr

section

variable {P Q : Expr → Prop}

mutual

/-- A weaker property of all expressions inside an expression. -/
theorem Expr.Everywhere.imp (h : ∀ e, P e → Q e) : ∀ {e : Expr}, e.Everywhere P → e.Everywhere Q
  | .literal _, he => ⟨h _ he.1, he.2.imp h⟩
  | .var _, he => h _ he
  | .print _, he => ⟨h _ he.1, he.2.imp h⟩
  | .binop .., he => ⟨h _ he.1, he.2.1.imp h, he.2.2.imp h⟩
  | .cond .., he => ⟨h _ he.1, he.2.1.imp h, he.2.2.1.imp h, he.2.2.2.imp h⟩
  | .loop .., he => ⟨h _ he.1, he.2.1.imp h, he.2.2.imp h⟩
  | .seq .., he => ⟨h _ he.1, he.2.1.imp h, he.2.2.imp h⟩
  | .decl .., he => ⟨h _ he.1, he.2.imp h⟩
  | .assign .., he => ⟨h _ he.1, he.2.imp h⟩
  | .func .., he => ⟨h _ he.1, he.2.imp h⟩
  | .call .., he => ⟨h _ he.1, he.2.1.imp h, he.2.2.imp h⟩

theorem Value.Everywhere.imp (h : ∀ e, P e → Q e) :
    ∀ {v : Value}, v.Everywhere P → v.Everywhere Q
  | .closure .., hv => Expr.EverywhereBlock.imp h hv
  | .int _, _ => trivial
  | .bool _, _ => trivial
  | .null, _ => trivial

theorem Expr.EverywhereBlock.imp (h : ∀ e, P e → Q e) :
    ∀ {b : Option Expr}, Expr.EverywhereBlock P b → Expr.EverywhereBlock Q b
  | none, _ => trivial
  | some _, hb => Expr.Everywhere.imp h hb

theorem Expr.EverywhereArgs.imp (h : ∀ e, P e → Q e) :
    ∀ {args : List Expr}, Expr.EverywhereArgs P args → Expr.EverywhereArgs Q args
  | [], _ => trivial
  | _ :: _, hargs => ⟨hargs.1.imp h, hargs.2.imp h⟩

end

end

/-- A literal value: an integer of the range, a truth value or null. -/
def Value.IsLiteral : Value → Prop
  | .int n => Value.intMin ≤ n ∧ n ≤ Value.intMax
  | .bool _ | .null => True
  | .closure .. => False

/-- What a well-formed node owes beside the well-formedness of its parts. -/
def Expr.NodeOk : Expr → Prop
  | .literal v => v.IsLiteral
  | .var name | .decl name _ | .assign name _ => name ≠ []
  | .func params _ => ∀ p ∈ params, p ≠ []
  | _ => True

/-- Literals are no closures, and no name is empty. -/
def Expr.WellFormed (e : Expr) : Prop := e.Everywhere Expr.NodeOk

/-- Whether a node is no closure that stands as a literal. -/
def Expr.NoClosure : Expr → Prop
  | .literal (.closure ..) => False
  | _ => True

/-- Whether all literals inside an expression are integers, truth values or null. This is the part
of well-formedness on which scoping depends. -/
def Expr.PlainLiterals (e : Expr) : Prop := e.Everywhere Expr.NoClosure

theorem Expr.WellFormed.plainLiterals {e : Expr} (h : e.WellFormed) : e.PlainLiterals := by
  refine Everywhere.imp (fun e he => ?_) h
  unfold NoClosure
  split
  · exact he
  · trivial

end Treewalk
