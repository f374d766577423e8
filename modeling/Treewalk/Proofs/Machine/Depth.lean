import Mathlib.Data.ENat.Lattice
import Mathlib.Order.CompleteBooleanAlgebra
import Mathlib.Order.CompletePartialOrder
import Treewalk.Proofs.Machine.Accounts
import Treewalk.Proofs.Machine.Chains

/-!
# How deep evaluations lie inside each other

The depth of an evaluation (`Run.nesting`) is the least bound under which it does not run out of
depth (`Run.nesting_le_iff`). It is one more than the greatest depth of the evaluations that it
makes, those of the bodies of functions included (`Run.nesting_le_succ_iff`): evaluations that are
made one after another do not add up.

So a chain costs one level more than the deepest of its statements, and a loop one level more than
the deepest evaluation of its test and its body (`Run.nesting_of_chains_and_loops`). How many
statements or rounds there are does not matter, although the tree of a chain is as deep as the chain
is long.
-/

namespace Treewalk.Run

variable {rounds depth : Nat} {scope : ScopeId} {m : Machine}

/-- Whether an evaluation runs out of depth under a bound. -/
def Exhausts (rounds depth : Nat) (v : Visit) : Prop :=
  (eval rounds depth v.expr v.scope v.machine).1 = .exhausted

/-- The depth of an evaluation: the least bound under which it does not run out of depth, `⊤` if
there is none. -/
noncomputable def nesting (rounds : Nat) (v : Visit) : ℕ∞ :=
  ⨅ depth ∈ {depth : ℕ | ¬Exhausts rounds depth v}, (depth : ℕ∞)

theorem Exhausts.of_le {depth' : Nat} {v : Visit} (h : Exhausts rounds depth' v)
    (hle : depth ≤ depth') : Exhausts rounds depth v := by
  unfold Exhausts at h ⊢
  rcases eval_deepens rounds hle v.expr v.scope v.machine with hex | heq
  · exact hex
  · rw [heq, h]

/-- **An evaluation runs out of depth just if its bound is less than its depth.** -/
theorem nesting_le_iff {v : Visit} : nesting rounds v ≤ depth ↔ ¬Exhausts rounds depth v := by
  constructor
  · intro h hex
    have hle : ((depth + 1 : ℕ) : ℕ∞) ≤ nesting rounds v := by
      refine le_iInf₂ fun depth' h' => Nat.cast_le.mpr (Nat.lt_of_not_le fun hle => h' ?_)
      exact hex.of_le hle
    exact absurd (Nat.cast_le.mp (hle.trans h)) (Nat.not_succ_le_self depth)
  · exact fun h => iInf₂_le depth h

/-! ## The evaluations that an evaluation makes -/

/-- Whether a step runs out of depth just if one of the evaluations does that it makes. -/
def exhaustion (rounds depth : Nat) : Account :=
  ⟨fun x f => ∀ m, (x m).1 = .exhausted ↔ ∃ v ∈ f m, Exhausts rounds depth v⟩

/-- A step that makes no evaluations does not run out of depth. -/
theorem exhaustion_own {α : Type} {x : Run α} (h : ∀ m, (x m).1 ≠ .exhausted) :
    (exhaustion rounds depth).holds x fun _ => [] :=
  fun m => iff_of_false (h m) fun ⟨_, hv, _⟩ => nomatch hv

theorem lawful_exhaustion (rounds depth : Nat) :
    (exhaustion rounds depth).Lawful (eval rounds depth) where
  visit e scope m := by simp [Exhausts]
  bind {α β x y f g} hx hy m := by
    have hx := hx m
    simp only [bind_apply, after]
    generalize x m = r at hx ⊢
    rcases r with ⟨a | _ | _ | _, m'⟩
    · -- The first step has a result, so what runs out of depth is made by the second one.
      have hnone : ∀ v ∈ f m, ¬Exhausts rounds depth v :=
        fun v hv hex => nomatch hx.mpr ⟨v, hv, hex⟩
      refine (hy a m').trans ⟨?_, ?_⟩
      · rintro ⟨v, hv, hex⟩
        exact ⟨v, List.mem_append_right _ hv, hex⟩
      · rintro ⟨v, hv, hex⟩
        exact ⟨v, (List.mem_append.mp hv).resolve_left fun hv => hnone v hv hex, hex⟩
    · simpa only [List.append_nil, reduceCtorEq] using hx
    · simpa only [List.append_nil] using hx
    · simpa only [List.append_nil, reduceCtorEq] using hx
  result _ := exhaustion_own fun _ => nofun
  fail _ := exhaustion_own fun _ => nofun
  suspend := exhaustion_own fun _ => nofun
  look _ := exhaustion_own fun _ => nofun
  note _ := exhaustion_own fun _ => nofun
  resolve _ _ := exhaustion_own fun _ => nofun
  declare scope name v := by
    refine exhaustion_own fun m => ?_
    unfold declare
    split <;> exact nofun
  update _ _ _ := exhaustion_own fun _ => nofun
  newScope _ := exhaustion_own fun _ => nofun
  push _ := exhaustion_own fun _ => nofun
  pop := exhaustion_own fun _ => nofun

/-- **An evaluation runs out of depth just if one of the evaluations does that it makes**, with one
level less. -/
theorem exhausts_succ_iff {v : Visit} : Exhausts rounds (depth + 1) v ↔
    ∃ w ∈ visits rounds (depth + 1) v.expr v.scope v.machine, Exhausts rounds depth w := by
  obtain ⟨e, scope, m⟩ := v
  have hA := lawful_exhaustion rounds depth
  by_cases he : ∃ a, e = .print a
  · obtain ⟨a, rfl⟩ := he
    have hwrite : ∀ v : Value, (exhaustion rounds depth).holds
        (writeLine v.text >>= fun _ => result v) fun _ => [] :=
      fun v => exhaustion_own fun _ => nofun
    exact hA.bind_own (hA.visit a scope) hwrite { m with current := .node (.print a) }
  · exact hA.eval (fun a ha => he ⟨a, ha⟩) scope m

/-- **An evaluation lies one level around the evaluations that it makes.** -/
theorem nesting_le_succ_iff {v : Visit} : nesting rounds v ≤ (depth + 1 : ℕ) ↔
    ∀ w ∈ visits rounds (depth + 1) v.expr v.scope v.machine, nesting rounds w ≤ depth := by
  rw [nesting_le_iff, exhausts_succ_iff]
  simp only [nesting_le_iff, not_exists, not_and]

/-- The depth of an evaluation that stays within one level more than others. -/
theorem nesting_le_iSup_succ {visits : Nat → List Visit} {v : Visit}
    (h : ∀ depth, (∀ w ∈ visits depth, ¬Exhausts rounds depth w) →
      ¬Exhausts rounds (depth + 1) v) :
    nesting rounds v ≤ (⨆ w ∈ {w | ∃ depth, w ∈ visits depth}, nesting rounds w) + 1 := by
  cases hsup : ⨆ w ∈ {w | ∃ depth, w ∈ visits depth}, nesting rounds w with
  | top => exact le_top
  | coe depth =>
    have hdeepest : ∀ w ∈ visits depth, nesting rounds w ≤ depth := fun w hw =>
      hsup ▸ le_iSup₂_of_le w ⟨depth, hw⟩ le_rfl
    exact nesting_le_iff.mpr (h depth fun w hw => nesting_le_iff.mp (hdeepest w hw))

/-! ## Chains -/

/-- What statements end with, the chain ends with into which they are folded. -/
theorem evalStatements_deepens_ofStatements? {es : List Expr} {e : Expr}
    (h : Expr.ofStatements? es = some e) (last : Value) :
    (evalStatements (eval rounds depth) scope last es).Deepens
      (eval rounds (depth + 1) e scope) := by
  cases es with
  | nil => cases h
  | cons first rest =>
    -- The first statement may be a chain itself, and it is taken apart with the whole chain.
    refine Deepens.trans ?_ (evalStatements_deepens last e)
    cases h
    rw [Expr.statements_foldl_seq, evalStatements_append]
    exact (eval_deepens_statements first.ofStatements?_statements last).bind fun v => .refl _

/-- A chain stays within one level more than its statements. -/
theorem not_exhausts_chain {es : List Expr} {e : Expr} (h : Expr.ofStatements? es = some e)
    (hes : ∀ v ∈ visitsInTurn (eval rounds depth) scope es m, ¬Exhausts rounds depth v) :
    ¬Exhausts rounds (depth + 1) ⟨e, scope, m⟩ := by
  have hstatements : (evalStatements (eval rounds depth) scope .null es m).1 ≠ .exhausted := by
    intro hex
    obtain ⟨v, hv, hexv⟩ :=
      ((lawful_exhaustion rounds depth).evalStatements scope es .null m).mp hex
    exact hes v hv hexv
  have hchain : (evalStatements (eval rounds depth) scope .null es).Deepens
      (eval rounds (depth + 1) e scope) := evalStatements_deepens_ofStatements? h .null
  unfold Exhausts
  rw [← (hchain m).resolve_left hstatements]
  exact hstatements

/-! ## Loops -/

/-- How a loop ends does not depend on what was taken up before. -/
theorem evalLoop_current (test : Expr) (body : Option Expr) (left count : Nat) (last : Value)
    (d : Document) :
    (evalLoop (eval rounds depth) test body scope left count last { m with current := d }).1 =
      (evalLoop (eval rounds depth) test body scope left count last m).1 := by
  cases left with
  | zero => rfl
  | succ left => cases depth <;> rfl

/-- A loop stays within one level more than its tests and bodies. -/
theorem not_exhausts_loop {test : Expr} {body : Option Expr}
    (h : ∀ v ∈ visitsLoop (eval rounds depth) test body scope rounds m, ¬Exhausts rounds depth v) :
    ¬Exhausts rounds (depth + 1) ⟨.loop test body, scope, m⟩ := by
  intro hex
  have hloop : (evalLoop (eval rounds depth) test body scope rounds 0 .null m).1 = .exhausted := by
    rw [← evalLoop_current test body rounds 0 .null (.node (.loop test body))]
    exact hex
  obtain ⟨v, hv, hexv⟩ :=
    ((lawful_exhaustion rounds depth).evalLoop test body scope rounds 0 .null m).mp hloop
  exact h v hv hexv

/-! ## Both -/

/-- The evaluations of statements that are evaluated in turn. -/
def takenInTurn (rounds : Nat) (scope : ScopeId) (es : List Expr) (m : Machine) : Set Visit :=
  {v | ∃ depth, v ∈ visitsInTurn (eval rounds depth) scope es m}

/-- The evaluations of the test and the body in the rounds of a loop. -/
def takenInLoop (rounds : Nat) (test : Expr) (body : Option Expr) (scope : ScopeId)
    (m : Machine) : Set Visit :=
  {v | ∃ depth, v ∈ visitsLoop (eval rounds depth) test body scope rounds m}

/-- **Long programs and long loops cost no depth.** A chain is at most one level deeper than the
deepest of the statements that are evaluated in turn, and a loop at most one level deeper than the
deepest evaluation of its test or its body. So if all of these stay within a bound, then the whole
stays within one level more. -/
theorem nesting_of_chains_and_loops (rounds : Nat) (scope : ScopeId) (m : Machine) :
    (∀ es e, Expr.ofStatements? es = some e →
      nesting rounds ⟨e, scope, m⟩ ≤ (⨆ v ∈ takenInTurn rounds scope es m, nesting rounds v) + 1 ∧
      ∀ depth, (∀ v ∈ visitsInTurn (eval rounds depth) scope es m, ¬Exhausts rounds depth v) →
        (eval rounds (depth + 1) e scope m).1 ≠ .exhausted) ∧
    ∀ test body,
      nesting rounds ⟨.loop test body, scope, m⟩ ≤
        (⨆ v ∈ takenInLoop rounds test body scope m, nesting rounds v) + 1 ∧
      ∀ depth, (∀ v ∈ visitsLoop (eval rounds depth) test body scope rounds m,
          ¬Exhausts rounds depth v) →
        (eval rounds (depth + 1) (.loop test body) scope m).1 ≠ .exhausted := by
  refine ⟨fun es e he => ⟨?_, fun depth h => not_exhausts_chain he h⟩,
    fun test body => ⟨?_, fun depth h => not_exhausts_loop h⟩⟩
  · exact nesting_le_iSup_succ fun depth h => not_exhausts_chain he h
  · exact nesting_le_iSup_succ fun depth h => not_exhausts_loop h

/-- A chain whose first statement is a chain itself, and a loop that makes three rounds. -/
theorem nesting_of_chains_and_loops_three :
    let one : Expr := .literal (.int 1)
    let yes : Expr := .literal (.bool true)
    let es : List Expr := [.seq (.print one) one, .print one, one]
    let e : Expr := .seq (.seq (.seq (.print one) one) (.print one)) one
    let m := Machine.initial 10 false
    Expr.ofStatements? es = some e ∧
      (∀ v ∈ visitsInTurn (eval 3 3) 0 es m, ¬Exhausts 3 3 v) ∧
      (eval 3 4 e 0 m).1 ≠ .exhausted ∧
      (∀ v ∈ visitsLoop (eval 3 2) yes (some (.print one)) 0 3 m, ¬Exhausts 3 2 v) ∧
      (eval 3 3 (.loop yes (some (.print one))) 0 m).1 ≠ .exhausted := by
  intro one yes es e m
  obtain ⟨hchains, hloops⟩ := nesting_of_chains_and_loops 3 0 m
  have hes : ∀ v ∈ visitsInTurn (eval 3 3) 0 es m, ¬Exhausts 3 3 v := by
    rintro v (_ | ⟨_, _ | ⟨_, _ | ⟨_, hv⟩⟩⟩)
    · exact nofun
    · exact nofun
    · exact nofun
    · cases hv
  have hrounds : ∀ v ∈ visitsLoop (eval 3 2) yes (some (.print one)) 0 3 m, ¬Exhausts 3 2 v := by
    rintro v (_ | ⟨_, _ | ⟨_, _ | ⟨_, _ | ⟨_, _ | ⟨_, _ | ⟨_, hv⟩⟩⟩⟩⟩⟩)
    · exact nofun
    · exact nofun
    · exact nofun
    · exact nofun
    · exact nofun
    · exact nofun
    · cases hv
  exact ⟨rfl, hes, (hchains es e rfl).2 3 hes, hrounds, (hloops yes _).2 2 hrounds⟩

end Treewalk.Run
