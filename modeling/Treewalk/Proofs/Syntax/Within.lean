import Mathlib.Logic.Relation
import Treewalk.Proofs.Syntax.WellFormed

/-!
# Expressions within expressions

`Expr.Child` relates an expression to the parts with which it is evaluated. The bodies of functions
are no such parts; they are evaluated only when a closure is called, and so are the bodies of
closures that stand as literals. `Expr.Within` takes these in, and `Expr.Inside` what lies within in
several steps. A property is hereditary if it passes from an expression to all that lies within it,
and so to whatever its evaluation can take up.
-/

namespace Treewalk

namespace Expr

/-- Whether an expression is evaluated as an immediate part of another one. -/
inductive Child : Expr → Expr → Prop where
  | print {e} : Child e (.print e)
  | left {op l r} : Child l (.binop op l r)
  | right {op l r} : Child r (.binop op l r)
  | choiceTest {t thn els} : Child t (.cond t thn els)
  | thn {t thn els} : Child thn (.cond t (some thn) els)
  | els {t thn els} : Child els (.cond t thn (some els))
  | loopTest {t body} : Child t (.loop t body)
  | body {t body} : Child body (.loop t (some body))
  | first {a b} : Child a (.seq a b)
  | second {a b} : Child b (.seq a b)
  | init {x e} : Child e (.decl x e)
  | rhs {x e} : Child e (.assign x e)
  | callee {f args} : Child f (.call f args)
  | arg {f args arg} : arg ∈ args → Child arg (.call f args)

/-- Whether an expression is a part of another one, outside of the bodies of its functions. -/
def Part : Expr → Expr → Prop := Relation.ReflTransGen Child

/-- Whether an expression lies directly within another one: as a part, as the body of a function, or
as the body of a closure that stands as a literal. -/
inductive Within : Expr → Expr → Prop where
  | child {p e} : Child p e → Within p e
  | body {params b} : Within b (.func params (some b))
  | closure {params b scope} : Within b (.literal (.closure params (some b) scope))

/-- Whether an expression is another one or lies within it, however deep. -/
def Inside : Expr → Expr → Prop := Relation.ReflTransGen Within

/-- Whether a property passes to all that lies within an expression. -/
def Hereditary (Q : Expr → Prop) : Prop := ∀ {p e : Expr}, p.Within e → Q e → Q p

theorem hereditary_true : Hereditary fun _ => True := fun _ _ => trivial

/-- A hereditary property passes to what lies within an expression, however deep. -/
theorem Hereditary.inside {Q : Expr → Prop} (hQ : Hereditary Q) {p e : Expr} (h : p.Inside e)
    (he : Q e) : Q p := by
  induction h with
  | refl => exact he
  | tail _ h ih => exact ih (hQ h he)

/-- A hereditary property passes to the statements of a chain. -/
theorem Hereditary.statements {Q : Expr → Prop} (hQ : Hereditary Q) {e : Expr} (h : Q e) :
    ∀ s ∈ e.statements, Q s := by
  induction e using chainRec with
  | single e hs =>
    rw [hs]
    intro s hmem
    exact List.mem_singleton.mp hmem ▸ h
  | seq a b ih =>
    simp only [statements_seq, List.mem_append, List.mem_singleton]
    rintro s (hs | rfl)
    · exact ih (hQ (.child .first) h) s hs
    · exact hQ (.child .second) h

/-- What holds everywhere in an argument list holds everywhere in each argument. -/
theorem EverywhereArgs.of_mem {P : Expr → Prop} {args : List Expr} (h : EverywhereArgs P args)
    {arg : Expr} (harg : arg ∈ args) : arg.Everywhere P := by
  induction args with
  | nil => cases harg
  | cons a as ih =>
    rcases List.mem_cons.mp harg with rfl | harg
    · exact h.1
    · exact ih h.2 harg

/-- What holds everywhere is hereditary. -/
theorem hereditary_everywhere (P : Expr → Prop) : Hereditary (Everywhere P) := by
  intro p e hp h
  cases hp with
  | body => exact h.2
  | closure => exact h.2
  | child hp =>
    cases hp with
    | print | init | rhs => exact h.2
    | left | choiceTest | loopTest | first | callee => exact h.2.1
    | right | body | second => exact h.2.2
    | thn => exact h.2.2.1
    | els => exact h.2.2.2
    | arg harg => exact h.2.2.of_mem harg

end Expr

end Treewalk
