import Treewalk.Proofs.Regrouping.Syntax
import Treewalk.Proofs.Syntax.Chain

/-!
# Chains nested to the left

`Expr.leftNested` nests all chains inside an expression to the left. The result is regrouped with
the expression (`regrouped_leftNested`), and regrouped expressions have the same result
(`Regrouped.leftNested_eq`): it is a normal form for regrouping (`leftNested_eq_iff`).

The source of regrouped expressions is the same, but the depth of the calls that lay it out is not.
The left-nested form takes the least depth of all (`layoutDepth_leftNested_le`), because a chain is
laid out along its left spine by one call.
-/

namespace Treewalk.Expr

variable {e e' a a' : Expr}

/-- The chain of an expression and of the statements of another one behind it. -/
def followedBy (e e' : Expr) : Expr := e'.statements.foldl .seq e

/-- The statements of one expression behind another one are those of both. -/
theorem statements_followedBy (e e' : Expr) :
    (e.followedBy e').statements = e.statements ++ e'.statements :=
  statements_foldl_seq e e'.statements

theorem followedBy_assoc (a b c : Expr) :
    (a.followedBy b).followedBy c = a.followedBy (b.followedBy c) := by
  rw [followedBy, followedBy, followedBy, statements_followedBy, List.foldl_append]

mutual

/-- The expression with all its chains nested to the left. -/
def leftNested : Expr → Expr
  | .literal v => .literal v
  | .var name => .var name
  | .print arg => .print arg.leftNested
  | .binop op left right => .binop op left.leftNested right.leftNested
  | .cond test thn els => .cond test.leftNested (leftNestedBlock thn) (leftNestedBlock els)
  | .loop test body => .loop test.leftNested (leftNestedBlock body)
  | .seq first second => first.leftNested.followedBy second.leftNested
  | .decl name init => .decl name init.leftNested
  | .assign name rhs => .assign name rhs.leftNested
  | .func params body => .func params (leftNestedBlock body)
  | .call callee args => .call callee.leftNested (leftNestedArgs args)

/-- The block with all its chains nested to the left. -/
def leftNestedBlock : Option Expr → Option Expr
  | none => none
  | some body => some body.leftNested

/-- The arguments with all their chains nested to the left. -/
def leftNestedArgs : List Expr → List Expr
  | [] => []
  | arg :: args => arg.leftNested :: leftNestedArgs args

end

theorem leftNestedArgs_eq_map (args : List Expr) : leftNestedArgs args = args.map leftNested := by
  induction args with
  | nil => rfl
  | cons arg args ih => rw [leftNestedArgs, ih, List.map_cons]

/-! ## The normal form is regrouped with the expression -/

/-- What may be regrouped inside a node may be regrouped by any number of steps. -/
theorem Regrouped.lift (f : Expr → Expr) (hf : ∀ {a a'}, Regroup a a' → Regroup (f a) (f a'))
    (h : Regrouped a a') : Regrouped (f a) (f a') := by
  induction h with
  | rel _ _ h => exact .rel _ _ (hf h)
  | refl => exact .refl _
  | symm _ _ _ ih => exact .symm _ _ ih
  | trans _ _ _ _ _ ih ih' => exact .trans _ _ _ ih ih'

/-- Both parts of a chain may be regrouped. -/
theorem Regrouped.seq {b b' : Expr} (ha : Regrouped a a') (hb : Regrouped b b') :
    Regrouped (.seq a b) (.seq a' b') :=
  .trans _ _ _ (ha.lift (.seq · b) .first) (hb.lift (.seq a') .second)

/-- All arguments of a call may be regrouped. -/
theorem Regrouped.args {f : Expr} {args args' : List Expr}
    (h : List.Forall₂ Regrouped args args') : Regrouped (.call f args) (.call f args') := by
  suffices hbehind : ∀ before : List Expr,
      Regrouped (.call f (before ++ args)) (.call f (before ++ args')) from hbehind []
  induction h with
  | nil => exact fun _ => .refl _
  | @cons a a' args args' ha _ ih =>
    intro before
    have hrest := ih (before ++ [a'])
    simp only [List.append_assoc, List.singleton_append] at hrest
    exact .trans _ _ _ (ha.lift (fun a => .call f (before ++ a :: args)) (.arg before args)) hrest

/-- A chain of two expressions may be nested to the left. -/
theorem regrouped_followedBy (a b : Expr) : Regrouped (.seq a b) (a.followedBy b) := by
  induction b using chainRec with
  | single b hb =>
    rw [followedBy, hb]
    exact .refl _
  | seq first second ih =>
    have hnested : a.followedBy (.seq first second) = .seq (a.followedBy first) second := by
      rw [followedBy, followedBy, statements_seq, List.foldl_append]
      rfl
    have hassoc : Regrouped (.seq a (.seq first second)) (.seq (.seq a first) second) :=
      .symm _ _ (.rel _ _ (.assoc a first second))
    rw [hnested]
    exact .trans _ _ _ hassoc (ih.lift (.seq · second) .first)

mutual

/-- **An expression is regrouped with its left-nested form.** -/
theorem regrouped_leftNested : ∀ e : Expr, Regrouped e e.leftNested
  | .literal _ => .refl _
  | .var _ => .refl _
  | .print arg => (regrouped_leftNested arg).lift .print .print
  | .binop op left right =>
    .trans _ _ _ ((regrouped_leftNested left).lift (.binop op · right) .left)
      ((regrouped_leftNested right).lift (.binop op left.leftNested) .right)
  | .cond test thn els =>
    .trans _ _ _ ((regrouped_leftNested test).lift (.cond · thn els) .choiceTest)
      (.trans _ _ _ (regrouped_leftNestedBlock (.cond test.leftNested · els) .thn thn)
        (regrouped_leftNestedBlock (.cond test.leftNested (leftNestedBlock thn)) .els els))
  | .loop test body =>
    .trans _ _ _ ((regrouped_leftNested test).lift (.loop · body) .loopTest)
      (regrouped_leftNestedBlock (.loop test.leftNested) .loopBody body)
  | .seq first second =>
    .trans _ _ _ ((regrouped_leftNested first).seq (regrouped_leftNested second))
      (regrouped_followedBy _ _)
  | .decl name init => (regrouped_leftNested init).lift (.decl name) .init
  | .assign name rhs => (regrouped_leftNested rhs).lift (.assign name) .rhs
  | .func params body => regrouped_leftNestedBlock (.func params) .body body
  | .call callee args =>
    .trans _ _ _ ((regrouped_leftNested callee).lift (.call · args) .callee)
      (Regrouped.args (regrouped_leftNestedArgs args))

theorem regrouped_leftNestedBlock (f : Option Expr → Expr)
    (hf : ∀ {a a'}, Regroup a a' → Regroup (f (some a)) (f (some a'))) :
    ∀ b : Option Expr, Regrouped (f b) (f (leftNestedBlock b))
  | none => .refl _
  | some body => (regrouped_leftNested body).lift (f <| some ·) hf

theorem regrouped_leftNestedArgs :
    ∀ args : List Expr, List.Forall₂ Regrouped args (leftNestedArgs args)
  | [] => .nil
  | arg :: args => .cons (regrouped_leftNested arg) (regrouped_leftNestedArgs args)

end

/-! ## Regrouped expressions have the same normal form -/

/-- Regrouping one chain leaves the left-nested form as it is. -/
theorem Regroup.leftNested_eq (h : Regroup e e') : e.leftNested = e'.leftNested := by
  induction h with
  | assoc a b c => exact followedBy_assoc _ _ _
  | arg before after h ih =>
    simp only [leftNested, leftNestedArgs_eq_map, List.map_append, List.map_cons, ih]
  | _ => simp only [leftNested, leftNestedBlock, *]

theorem Regrouped.leftNested_eq (h : Regrouped e e') : e.leftNested = e'.leftNested := by
  induction h with
  | rel _ _ h => exact h.leftNested_eq
  | refl => rfl
  | symm _ _ _ ih => exact ih.symm
  | trans _ _ _ _ _ ih ih' => exact ih.trans ih'

/-- **Expressions are regrouped if and only if they have the same left-nested form.** -/
theorem leftNested_eq_iff : e.leftNested = e'.leftNested ↔ Regrouped e e' := by
  refine ⟨fun h => ?_, Regrouped.leftNested_eq⟩
  have hback := (regrouped_leftNested e').symm
  rw [← h] at hback
  exact .trans _ _ _ (regrouped_leftNested e) hback

/-! ## The normal form is laid out in the least depth -/

theorem listLayoutDepth_append (es es' : List Expr) :
    listLayoutDepth (es ++ es') = max (listLayoutDepth es) (listLayoutDepth es') := by
  induction es with
  | nil => simp [listLayoutDepth]
  | cons e es ih => rw [List.cons_append, listLayoutDepth, ih, listLayoutDepth, Nat.max_assoc]

/-- A chain takes the depth of its deepest statement and four calls around it, however long the
chain is. -/
theorem layoutDepth_seq (first second : Expr) :
    layoutDepth (.seq first second) = 4 + listLayoutDepth (first.statements ++ [second]) := by
  induction first using chainRec generalizing second with
  | single e he =>
    have hpair : layoutDepth (.seq e second) =
        max (4 + layoutDepth e) (4 + layoutDepth second) := by
      cases e with
      | seq a b =>
        obtain ⟨s, ss, hs⟩ := a.exists_statements_eq_cons
        rw [statements_seq, hs] at he
        simp at he
      | _ => rfl
    rw [hpair, he]
    simp only [List.cons_append, List.nil_append, listLayoutDepth]
    omega
  | seq a b ih =>
    have hmatch : layoutDepth (.seq (.seq a b) second) =
        max (layoutDepth (.seq a b)) (4 + layoutDepth second) := rfl
    rw [hmatch, ih, statements_seq, listLayoutDepth_append _ [second]]
    simp only [listLayoutDepth]
    omega

/-- Whether an expression is not laid out deeper than another one, and neither are its
statements. -/
def ShallowerThan (e e' : Expr) : Prop :=
  e.layoutDepth ≤ e'.layoutDepth ∧
    listLayoutDepth e.statements ≤ listLayoutDepth e'.statements

theorem ShallowerThan.of_single {e e' : Expr} (h : e.statements = [e]) (h' : e'.statements = [e'])
    (hle : e.layoutDepth ≤ e'.layoutDepth) : e.ShallowerThan e' := by
  refine ⟨hle, ?_⟩
  rw [h, h']
  simp only [listLayoutDepth]
  omega

/-- The statements of an expression are not deeper than the expression. -/
theorem listLayoutDepth_statements_le (e : Expr) :
    listLayoutDepth e.statements ≤ e.layoutDepth := by
  induction e using chainRec with
  | single e he =>
    rw [he]
    simp [listLayoutDepth]
  | seq a b _ =>
    rw [layoutDepth_seq, statements_seq]
    omega

theorem layoutDepth_followedBy (a b : Expr) :
    (a.followedBy b).layoutDepth = 4 + listLayoutDepth (a.statements ++ b.statements) := by
  induction b using chainRec with
  | single b hb =>
    rw [followedBy, hb]
    exact layoutDepth_seq a b
  | seq first second =>
    have hnested : a.followedBy (.seq first second) = .seq (a.followedBy first) second := by
      rw [followedBy, followedBy, statements_seq, List.foldl_append]
      rfl
    rw [hnested, layoutDepth_seq, statements_followedBy, statements_seq, List.append_assoc]

mutual

theorem shallower_leftNested : ∀ e : Expr, e.leftNested.ShallowerThan e
  | .literal _ | .var _ => .of_single rfl rfl (Nat.le_refl _)
  | .print arg | .decl _ arg | .assign _ arg =>
    .of_single rfl rfl (Nat.add_le_add_left (shallower_leftNested arg).1 2)
  | .binop _ left right => by
    have hleft := (shallower_leftNested left).1
    have hright := (shallower_leftNested right).1
    refine .of_single rfl rfl ?_
    simp only [leftNested, layoutDepth]
    omega
  | .cond test thn els => by
    have htest := (shallower_leftNested test).1
    have hthn := blockLayoutDepth_leftNested_le thn
    have hels := blockLayoutDepth_leftNested_le els
    refine .of_single rfl rfl ?_
    simp only [leftNested, layoutDepth]
    omega
  | .loop test body => by
    have htest := (shallower_leftNested test).1
    have hbody := blockLayoutDepth_leftNested_le body
    refine .of_single rfl rfl ?_
    simp only [leftNested, layoutDepth]
    omega
  | .seq first second => by
    have hfirst := (shallower_leftNested first).2
    have hsecond := (shallower_leftNested second).2
    have hbelow := listLayoutDepth_statements_le second
    have hdepth : listLayoutDepth (first.leftNested.statements ++ second.leftNested.statements) ≤
        listLayoutDepth (first.statements ++ [second]) := by
      rw [listLayoutDepth_append, listLayoutDepth_append]
      simp only [listLayoutDepth]
      omega
    refine ⟨?_, ?_⟩
    · rw [leftNested, layoutDepth_followedBy, layoutDepth_seq]
      exact Nat.add_le_add_left hdepth 4
    · rw [leftNested, statements_followedBy, statements_seq]
      exact hdepth
  | .func _ body =>
    .of_single rfl rfl (Nat.add_le_add_left (blockLayoutDepth_leftNested_le body) 3)
  | .call callee args => by
    have hcallee := (shallower_leftNested callee).1
    have hargs := listLayoutDepth_leftNested_le args
    refine .of_single rfl rfl ?_
    simp only [leftNested, layoutDepth]
    omega

theorem blockLayoutDepth_leftNested_le :
    ∀ b : Option Expr, blockLayoutDepth (leftNestedBlock b) ≤ blockLayoutDepth b
  | none => Nat.le_refl _
  | some body => (shallower_leftNested body).1

theorem listLayoutDepth_leftNested_le :
    ∀ es : List Expr, listLayoutDepth (leftNestedArgs es) ≤ listLayoutDepth es
  | [] => Nat.le_refl _
  | e :: es => by
    have he := (shallower_leftNested e).1
    have hes := listLayoutDepth_leftNested_le es
    simp only [leftNestedArgs, listLayoutDepth]
    omega

end

/-- **Of all ways to nest the chains of an expression, the one to the left is laid out in the least
depth.** -/
theorem layoutDepth_leftNested_le {e e' : Expr} (h : Regrouped e e') :
    e.leftNested.layoutDepth ≤ e'.layoutDepth := by
  rw [h.leftNested_eq]
  exact (shallower_leftNested e').1

end Treewalk.Expr
