import Treewalk.Proofs.SideBySide.Step

/-!
# Evaluations side by side

In a lawful pairing evaluation mirrors itself: corresponding expressions, evaluated in corresponding
scopes of corresponding machines, end in corresponding ways (`Lawful.mirrors_eval`). The step from
one depth to the next (`Lawful.mirrors_eval_succ`) goes through the nodes and leaves open how the
statements of two chains correspond; `mirrors_eval` settles this for chains of the same shape.
-/

namespace Treewalk.Pairing

open Run

variable {P : Pairing}

/-- Whether a bound of the first evaluation fits to one of the second: they are equal, or the first
may be used up earlier and is no greater. -/
def Fits (excused : Prop) (n n' : Nat) : Prop := n = n' ∨ excused ∧ n ≤ n'

theorem Fits.refl {excused : Prop} (n : Nat) : Fits excused n n := .inl rfl

theorem Fits.of_succ {excused : Prop} {n n' : Nat} (h : Fits excused (n + 1) n') :
    ∃ k, n' = k + 1 ∧ Fits excused n k := by
  rcases h with rfl | ⟨hexcused, hle⟩
  · exact ⟨n, rfl, .refl n⟩
  · obtain ⟨k, rfl⟩ := Nat.exists_eq_add_one.mpr (Nat.lt_of_lt_of_le (Nat.succ_pos _) hle)
    exact ⟨k, rfl, .inr ⟨hexcused, Nat.le_of_succ_le_succ hle⟩⟩

/-- Whether an evaluator of expressions mirrors another one. -/
def EvaluatorsMirror (P : Pairing) (ev ev' : Expr → ScopeId → Run Value) : Prop :=
  ∀ e e' i i', P.expr e e' → P.scope i i' → P.Mirrors P.Values (ev e i) (ev' e' i')

/-! ## Parts of evaluation -/

section

variable {ev ev' : Expr → ScopeId → Run Value} {i i' : ScopeId}

theorem mirrors_evalBlock (hev : P.EvaluatorsMirror ev ev') {b b' : Option Expr}
    (h : Option.Rel P.expr b b') (hi : P.scope i i') :
    P.Mirrors P.Values (evalBlock ev b i) (evalBlock ev' b' i') := by
  cases h with
  | none => exact mirrors_result .null
  | some h => exact hev _ _ _ _ h hi

theorem mirrors_evalStatements (hev : P.EvaluatorsMirror ev ev') {es es' : List Expr}
    (h : List.Forall₂ P.expr es es') (hi : P.scope i i') {last last' : Value}
    (hlast : P.Values last last') :
    P.Mirrors P.Values (evalStatements ev i last es) (evalStatements ev' i' last' es') := by
  induction h generalizing last last' with
  | nil => exact mirrors_result hlast
  | cons he _ ih => exact (hev _ _ _ _ he hi).bind fun v v' hv => ih hv

theorem mirrors_evalArgs (hev : P.EvaluatorsMirror ev ev') {es es' : List Expr}
    (h : List.Forall₂ P.expr es es') (hi : P.scope i i') :
    P.Mirrors (List.Forall₂ P.Values) (evalArgs ev i es) (evalArgs ev' i' es') := by
  induction h with
  | nil => exact mirrors_result .nil
  | cons he _ ih =>
    refine (hev _ _ _ _ he hi).bind fun v v' hv => ih.bind fun vs vs' hvs => ?_
    exact mirrors_result (.cons hv hvs)

/-- Both loops make the same rounds until the smaller bound is used up. -/
theorem mirrors_evalLoop (hP : P.Lawful) (hev : P.EvaluatorsMirror ev ev') {test test' : Expr}
    {body body' : Option Expr} (htest : P.expr test test') (hbody : Option.Rel P.expr body body')
    (hi : P.scope i i') {rounds rounds' : Nat} (hr : Fits P.unfinishedFirst rounds rounds')
    (count : Nat) {last last' : Value} (hlast : P.Values last last') :
    P.Mirrors P.Values (evalLoop ev test body i rounds count last)
      (evalLoop ev' test' body' i' rounds' count last') := by
  induction rounds generalizing rounds' count last last' with
  | zero =>
    intro m m' hm
    rcases hr with rfl | ⟨hP, -⟩
    · exact .unfinished hm
    · exact .unfinishedFirst hP
  | succ rounds ih =>
    obtain ⟨left, rfl, hleft⟩ := hr.of_succ
    refine (hev _ _ _ _ htest hi).bind fun c c' hc => ?_
    refine (mirrors_demandBool .loop hc).bind fun holds holds' hholds => ?_
    subst hholds
    cases holds with
    | true =>
      exact (mirrors_evalBlock hev hbody hi).bind fun v v' hv => ih hleft (count + 1) hv
    | false => exact (hP.mirrors_note rfl).bind fun _ _ _ => mirrors_result hlast

/-- Runs of corresponding bodies, with corresponding arguments. -/
theorem mirrors_applyClosure (hP : P.Lawful) (hev : P.EvaluatorsMirror ev ev') (params : List Text)
    {b b' : Option Expr} (hb : Option.Rel P.expr b b') {outer outer' : ScopeId}
    (houter : P.scope outer outer') {vs vs' : List Value} (hvs : List.Forall₂ P.Values vs vs') :
    P.Mirrors P.Values (applyClosure ev params b outer vs)
      (applyClosure ev' params b' outer' vs') := by
  refine (hP.mirrors_newScope houter).bind fun inner inner' hinner => ?_
  refine (hP.mirrors_bindParams hinner params hvs).bind fun _ _ _ => ?_
  exact mirrors_evalBlock hev hb hinner

/-- Calls of corresponding closures with corresponding arguments. -/
theorem mirrors_callClosure (hP : P.Lawful) (hev : P.EvaluatorsMirror ev ev')
    {site site' : Option Expr} (hsite : Option.Rel P.expr site site') (name : Text)
    (params : List Text) {b b' : Option Expr} (hb : Option.Rel P.expr b b') {outer outer' : ScopeId}
    (houter : P.scope outer outer') {vs vs' : List Value} (hvs : List.Forall₂ P.Values vs vs') :
    P.Mirrors P.Values (callClosure ev site name params b outer vs)
      (callClosure ev' site' name params b' outer' vs') := by
  rw [callClosure_eq, callClosure_eq]
  refine (hP.mirrors_noteCall name params hvs.length_eq).bind fun _ _ _ => ?_
  have hframe : P.Frames ⟨name, params, b, outer, vs, site⟩
      ⟨name, params, b', outer', vs', site'⟩ :=
    ⟨rfl, rfl, hb, houter, hvs, hsite⟩
  refine (hP.mirrors_push hframe).bind fun _ _ _ => ?_
  refine (mirrors_applyClosure hP hev params hb houter hvs).bind fun v v' hv => ?_
  exact hP.mirrors_pop.bind fun _ _ _ => mirrors_result hv

end

/-! ## Expressions -/

/-- Evaluations at the next depth, given those at one depth and what is made of chains. -/
theorem Lawful.mirrors_eval_succ (hP : P.Lawful) {rounds rounds' depth depth' : Nat}
    (hr : Fits P.unfinishedFirst rounds rounds')
    (hev : P.EvaluatorsMirror (eval rounds depth) (eval rounds' depth'))
    (hchain : ∀ a b e' i i', P.expr (.seq a b) e' → P.scope i i' →
      P.Mirrors P.Values (evalStatements (eval rounds depth) i .null (Expr.seq a b).statements)
        (evalStatements (eval rounds' depth') i' .null e'.statements)) :
    P.EvaluatorsMirror (eval rounds (depth + 1)) (eval rounds' (depth' + 1)) := by
  intro e e' i i' he hi
  unfold eval
  refine (hP.mirrors_look he).bind fun _ _ _ => ?_
  cases hP.node he with
  | literal hv => exact mirrors_result hv
  | var name => exact hP.mirrors_resolve hi name
  | func params hb => exact mirrors_result (.closure params hb hi)
  | print ha =>
    refine (hev _ _ _ _ ha hi).bind fun v v' hv => ?_
    exact (hP.mirrors_writeLine hv.text_eq).bind fun _ _ _ => mirrors_result hv
  | binop op hl hr =>
    refine (hev _ _ _ _ hl hi).bind fun a a' ha => ?_
    refine (hev _ _ _ _ hr hi).bind fun b b' hb => ?_
    exact (hP.mirrors_look he).bind fun _ _ _ => mirrors_combine op ha hb
  | cond htest hthn hels =>
    refine (hev _ _ _ _ htest hi).bind fun c c' hc => ?_
    refine (mirrors_demandBool .choice hc).bind fun holds holds' hholds => ?_
    subst hholds
    cases holds with
    | true => exact mirrors_evalBlock hev hthn hi
    | false => exact mirrors_evalBlock hev hels hi
  | loop htest hbody => exact mirrors_evalLoop hP hev htest hbody hi hr 0 .null
  | seq a b a' b' => exact hchain a b _ i i' he hi
  | decl name ha =>
    refine (hev _ _ _ _ ha hi).bind fun v v' hv => ?_
    refine (hP.mirrors_look he).bind fun _ _ _ => ?_
    refine (hP.mirrors_declare hi name hv).bind fun _ _ _ => ?_
    refine (hP.mirrors_note (by rw [hv.shown_eq])).bind fun _ _ _ => ?_
    exact hP.mirrors_resolve hi name
  | assign name ha =>
    refine (hev _ _ _ _ ha hi).bind fun v v' hv => ?_
    refine (hP.mirrors_update hi name hv).bind fun _ _ _ => ?_
    refine (hP.mirrors_note (by rw [hv.shown_eq])).bind fun _ _ _ => ?_
    exact hP.mirrors_resolve hi name
  | call hf hargs =>
    refine (hev _ _ _ _ hf hi).bind fun f f' hclosure => ?_
    cases hclosure with
    | closure params hb houter =>
      refine (mirrors_evalArgs hev hargs hi).bind fun vs vs' hvs => ?_
      rw [(hP.node hf).calleeName_eq]
      exact mirrors_callClosure hP hev (.some he) _ params hb houter hvs
    | int | bool | null =>
      exact (hP.mirrors_look he).bind fun _ _ _ => mirrors_fail (.notCallable _)

/-- **Evaluations of corresponding expressions mirror each other**, if corresponding chains have
corresponding parts. -/
theorem Lawful.mirrors_eval (hP : P.Lawful)
    (hseq : ∀ {a b e'}, P.expr (.seq a b) e' →
      ∃ a' b', e' = .seq a' b' ∧ P.expr a a' ∧ P.expr b b')
    {rounds rounds' depth depth' : Nat} (hr : Fits P.unfinishedFirst rounds rounds')
    (hd : Fits P.exhaustedFirst depth depth') :
    P.EvaluatorsMirror (eval rounds depth) (eval rounds' depth') := by
  have hstatements : ∀ e e', P.expr e e' → List.Forall₂ P.expr e.statements e'.statements := by
    intro e
    induction e using Expr.chainRec with
    | single e he =>
      intro e' h
      have he' : e'.statements = [e'] := by
        cases hP.node h with
        | seq a b =>
          obtain ⟨s, ss, ha⟩ := a.exists_statements_eq_cons
          simp [ha] at he
        | _ => rfl
      rw [he, he']
      exact .cons h .nil
    | seq a b ih =>
      intro e' h
      obtain ⟨a', b', rfl, ha, hb⟩ := hseq h
      rw [Expr.statements_seq, Expr.statements_seq]
      exact List.rel_append (ih a' ha) (.cons hb .nil)
  induction depth generalizing depth' with
  | zero =>
    intro e e' i i' _ _ m m' hm
    rcases hd with rfl | ⟨hP, -⟩
    · exact .exhausted hm
    · exact .exhaustedFirst hP
  | succ depth ih =>
    obtain ⟨inner, rfl, hinner⟩ := hd.of_succ
    refine hP.mirrors_eval_succ hr (ih hinner) fun a b e' i i' h hi => ?_
    exact mirrors_evalStatements (ih hinner) (hstatements _ _ h) hi .null

end Treewalk.Pairing
