import Treewalk.Proofs.SideBySide.Same

/-!
# Likenesses that are equivalences

If corresponding is an equivalence, for expressions and for scopes, then it is one for values and
for nodes, too.
-/

namespace Treewalk

section

variable {α : Type} {R : α → α → Prop}

theorem rel_symm (hR : Equivalence R) {x y : Option α} (h : Option.Rel R x y) :
    Option.Rel R y x := by
  cases h with
  | none => exact .none
  | some h => exact .some (hR.symm h)

theorem rel_trans (hR : Equivalence R) {x y z : Option α} (h : Option.Rel R x y)
    (h' : Option.Rel R y z) : Option.Rel R x z := by
  cases h with
  | none => exact h'
  | some h =>
    cases h' with
    | some h' => exact .some (hR.trans h h')

theorem forall₂_symm (hR : Equivalence R) {xs ys : List α} (h : List.Forall₂ R xs ys) :
    List.Forall₂ R ys xs :=
  (h.imp fun _ _ h => hR.symm h).flip

theorem forall₂_trans (hR : Equivalence R) {xs ys zs : List α} (h : List.Forall₂ R xs ys)
    (h' : List.Forall₂ R ys zs) : List.Forall₂ R xs zs := by
  induction h generalizing zs with
  | nil => exact h'
  | cons hx _ ih =>
    cases h' with
    | cons hy h' => exact .cons (hR.trans hx hy) (ih h')

end

namespace Likeness

variable {L : Likeness}

theorem equivalence_values (hexpr : Equivalence L.expr) (hscope : Equivalence L.scope) :
    Equivalence L.Values where
  refl v := by
    cases v with
    | int n => exact .int n
    | bool b => exact .bool b
    | null => exact .null
    | closure params b i =>
      exact .closure params (rel_self fun a _ => hexpr.refl a) (hscope.refl i)
  symm h := by
    cases h with
    | int n => exact .int n
    | bool b => exact .bool b
    | null => exact .null
    | closure params hb hi => exact .closure params (rel_symm hexpr hb) (hscope.symm hi)
  trans h h' := by
    cases h with
    | int | bool | null => exact h'
    | closure params hb hi =>
      cases h' with
      | closure _ hb' hi' =>
        exact .closure params (rel_trans hexpr hb hb') (hscope.trans hi hi')

theorem equivalence_nodes (hexpr : Equivalence L.expr) (hscope : Equivalence L.scope) :
    Equivalence L.Nodes where
  refl e := nodes_self (fun p _ => hexpr.refl p) fun _ _ i _ => hscope.refl i
  symm h := by
    cases h with
    | literal hv => exact .literal ((equivalence_values hexpr hscope).symm hv)
    | var x => exact .var x
    | print ha => exact .print (hexpr.symm ha)
    | binop op hl hr => exact .binop op (hexpr.symm hl) (hexpr.symm hr)
    | cond ht hthn hels =>
      exact .cond (hexpr.symm ht) (rel_symm hexpr hthn) (rel_symm hexpr hels)
    | loop ht hbody => exact .loop (hexpr.symm ht) (rel_symm hexpr hbody)
    | seq a b a' b' => exact .seq a' b' a b
    | decl x ha => exact .decl x (hexpr.symm ha)
    | assign x ha => exact .assign x (hexpr.symm ha)
    | func params hb => exact .func params (rel_symm hexpr hb)
    | call hf hargs => exact .call (hexpr.symm hf) (forall₂_symm hexpr hargs)
  trans h h' := by
    cases h with
    | literal hv =>
      cases h' with
      | literal hv' => exact .literal ((equivalence_values hexpr hscope).trans hv hv')
    | var x => exact h'
    | print ha =>
      cases h' with
      | print ha' => exact .print (hexpr.trans ha ha')
    | binop op hl hr =>
      cases h' with
      | binop _ hl' hr' => exact .binop op (hexpr.trans hl hl') (hexpr.trans hr hr')
    | cond ht hthn hels =>
      cases h' with
      | cond ht' hthn' hels' =>
        exact .cond (hexpr.trans ht ht') (rel_trans hexpr hthn hthn')
          (rel_trans hexpr hels hels')
    | loop ht hbody =>
      cases h' with
      | loop ht' hbody' => exact .loop (hexpr.trans ht ht') (rel_trans hexpr hbody hbody')
    | seq a b =>
      cases h' with
      | seq _ _ a' b' => exact .seq a b a' b'
    | decl x ha =>
      cases h' with
      | decl _ ha' => exact .decl x (hexpr.trans ha ha')
    | assign x ha =>
      cases h' with
      | assign _ ha' => exact .assign x (hexpr.trans ha ha')
    | func params hb =>
      cases h' with
      | func _ hb' => exact .func params (rel_trans hexpr hb hb')
    | call hf hargs =>
      cases h' with
      | call hf' hargs' => exact .call (hexpr.trans hf hf') (forall₂_trans hexpr hargs hargs')

end Likeness

end Treewalk
