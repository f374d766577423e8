import Mathlib.Logic.Relation
import Treewalk.Expr.Source
import Treewalk.Proofs.SideBySide.Equivalence

/-!
# Regrouping chains

Chains may be nested in several ways. `Expr.Regrouped` is the least congruence that takes
`seq (seq a b) c` for `seq a (seq b c)`, anywhere in an expression.

Regrouped expressions have the same source (`Regrouped.source_eq`). They consist of the same
statements: `Expr.heads` takes an expression apart at all its `seq` nodes, not only along the left
spine, and the heads of regrouped expressions are nodes of one kind with regrouped parts
(`Regrouped.heads`).
-/

namespace Treewalk

namespace Expr

/-- Whether an expression comes from another one by regrouping one chain in it. -/
inductive Regroup : Expr → Expr → Prop where
  | assoc (a b c : Expr) : Regroup (.seq (.seq a b) c) (.seq a (.seq b c))
  | print {a a'} : Regroup a a' → Regroup (.print a) (.print a')
  | left {op l l' r} : Regroup l l' → Regroup (.binop op l r) (.binop op l' r)
  | right {op l r r'} : Regroup r r' → Regroup (.binop op l r) (.binop op l r')
  | choiceTest {t t' thn els} : Regroup t t' → Regroup (.cond t thn els) (.cond t' thn els)
  | thn {t a a' els} : Regroup a a' → Regroup (.cond t (some a) els) (.cond t (some a') els)
  | els {t thn a a'} : Regroup a a' → Regroup (.cond t thn (some a)) (.cond t thn (some a'))
  | loopTest {t t' body} : Regroup t t' → Regroup (.loop t body) (.loop t' body)
  | loopBody {t a a'} : Regroup a a' → Regroup (.loop t (some a)) (.loop t (some a'))
  | first {a a' b} : Regroup a a' → Regroup (.seq a b) (.seq a' b)
  | second {a b b'} : Regroup b b' → Regroup (.seq a b) (.seq a b')
  | init {x a a'} : Regroup a a' → Regroup (.decl x a) (.decl x a')
  | rhs {x a a'} : Regroup a a' → Regroup (.assign x a) (.assign x a')
  | body {ps a a'} : Regroup a a' → Regroup (.func ps (some a)) (.func ps (some a'))
  | callee {f f' args} : Regroup f f' → Regroup (.call f args) (.call f' args)
  | arg {f a a'} (before after : List Expr) : Regroup a a' →
    Regroup (.call f (before ++ a :: after)) (.call f (before ++ a' :: after))

/-- The least congruence under which chains may be regrouped. -/
def Regrouped : Expr → Expr → Prop := Relation.EqvGen Regroup

theorem equivalence_regrouped : Equivalence Regrouped := Relation.EqvGen.is_equivalence Regroup

/-- The statements of an expression, with chains that are nested to the right taken apart, too. -/
def heads : Expr → List Expr
  | .seq a b => a.heads ++ b.heads
  | e => [e]

end Expr

/-- The likeness of equal scopes and regrouped expressions. -/
def Likeness.regrouping : Likeness := ⟨Expr.Regrouped, Eq⟩

namespace Expr

variable {e e' : Expr}

/-- Regrouping one chain changes at most one part of a node. -/
theorem Regroup.nodes (h : Regroup e e') : Likeness.regrouping.Nodes e e' := by
  have hrel : ∀ {p p' : Expr}, Regroup p p' → Regrouped p p' := .rel _ _
  have hsame : ∀ p : Expr, Regrouped p p := equivalence_regrouped.refl
  have hblock : ∀ b : Option Expr, Option.Rel Regrouped b b := fun b => rel_self fun a _ => hsame a
  have hargs : ∀ args : List Expr, List.Forall₂ Regrouped args args := fun args =>
    List.forall₂_same.mpr fun a _ => hsame a
  cases h with
  | assoc a b c => exact .seq _ _ _ _
  | first h => exact .seq _ _ _ _
  | second h => exact .seq _ _ _ _
  | print h => exact .print (hrel h)
  | left h => exact .binop _ (hrel h) (hsame _)
  | right h => exact .binop _ (hsame _) (hrel h)
  | choiceTest h => exact .cond (hrel h) (hblock _) (hblock _)
  | thn h => exact .cond (hsame _) (.some (hrel h)) (hblock _)
  | els h => exact .cond (hsame _) (hblock _) (.some (hrel h))
  | loopTest h => exact .loop (hrel h) (hblock _)
  | loopBody h => exact .loop (hsame _) (.some (hrel h))
  | init h => exact .decl _ (hrel h)
  | rhs h => exact .assign _ (hrel h)
  | body h => exact .func _ (.some (hrel h))
  | callee h => exact .call (hrel h) (hargs _)
  | arg before after h =>
    exact .call (hsame _) (List.rel_append (hargs before) (.cons (hrel h) (hargs after)))

/-- Regrouped expressions are nodes of one kind with regrouped parts, or both are chains. -/
theorem Regrouped.nodes (h : Regrouped e e') : Likeness.regrouping.Nodes e e' := by
  have hnodes := Likeness.equivalence_nodes (L := .regrouping) equivalence_regrouped eq_equivalence
  induction h with
  | rel _ _ h => exact h.nodes
  | refl e => exact hnodes.refl e
  | symm _ _ _ ih => exact hnodes.symm ih
  | trans _ _ _ _ _ ih ih' => exact hnodes.trans ih ih'

/-- The source of a regrouped chain is the same. -/
theorem Regroup.source_eq (h : Regroup e e') (width level : Int) :
    source width level e = source width level e' := by
  induction h generalizing level with
  | assoc a b c => simp only [source, List.append_assoc]
  | print h ih => rw [source, source, ih]
  | left h ih => rw [source, source, ih]
  | right h ih => rw [source, source, ih]
  | choiceTest h ih => rw [source, source, ih]
  | thn h ih => rw [source, source, blockSource, blockSource, ih]
  | els h ih => rw [source, source, elseSource, elseSource, ih]
  | loopTest h ih => rw [source, source, ih]
  | loopBody h ih => rw [source, source, blockSource, blockSource, ih]
  | first h ih => rw [source, source, ih]
  | second h ih => rw [source, source, ih]
  | init h ih => rw [source, source, ih]
  | rhs h ih => rw [source, source, ih]
  | body h ih => rw [source, source, blockSource, blockSource, ih]
  | @callee f f' args h ih =>
    -- Both callees get parentheses or none of them, because they are nodes of one kind.
    have hnodes := h.nodes
    rw [source.eq_def width level (.call f args), source.eq_def width level (.call f' args)]
    dsimp only
    rw [ih]
    cases hnodes <;> rfl
  | arg before after h ih =>
    simp only [source, argSources_eq_map, List.map_append, List.map_cons, ih]

/-- **Regrouped expressions have the same source.** -/
theorem Regrouped.source_eq (h : Regrouped e e') (width level : Int) :
    source width level e = source width level e' := by
  induction h with
  | rel _ _ h => exact h.source_eq width level
  | refl => rfl
  | symm _ _ _ ih => exact ih.symm
  | trans _ _ _ _ _ ih ih' => exact ih.trans ih'

/-- Regrouping one chain regroups at most one head. -/
theorem Regroup.heads (h : Regroup e e') : List.Forall₂ Regrouped e.heads e'.heads := by
  have hsame : ∀ es : List Expr, List.Forall₂ Regrouped es es := fun es =>
    List.forall₂_same.mpr fun e _ => equivalence_regrouped.refl e
  have hstep := h
  induction h with
  | assoc a b c =>
    show List.Forall₂ Regrouped ((a.heads ++ b.heads) ++ c.heads) (a.heads ++ (b.heads ++ c.heads))
    rw [List.append_assoc]
    exact hsame _
  | first h ih => exact List.rel_append (ih h) (hsame _)
  | second h ih => exact List.rel_append (hsame _) (ih h)
  | _ => exact .cons (.rel _ _ hstep) .nil

/-- Regrouped expressions have regrouped heads, one for one. -/
theorem Regrouped.heads (h : Regrouped e e') : List.Forall₂ Regrouped e.heads e'.heads := by
  induction h with
  | rel _ _ h => exact h.heads
  | refl e => exact List.forall₂_same.mpr fun e _ => equivalence_regrouped.refl e
  | symm _ _ _ ih => exact forall₂_symm equivalence_regrouped ih
  | trans _ _ _ _ _ ih ih' => exact forall₂_trans equivalence_regrouped ih ih'

end Expr

end Treewalk
