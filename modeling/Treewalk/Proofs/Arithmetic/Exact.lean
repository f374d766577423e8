import Treewalk.Proofs.Arithmetic.Range
import Treewalk.Proofs.Semantics.Adequacy

/-!
# Exact arithmetic, wrapped once

Sums, differences and products may be computed exactly and wrapped at the end: this gives what
wrapping at each operation gives (`evaluates_of_exactly`, `exists_exactly`). `EvaluatesExactly` is
the rule for such an expression in which nothing is wrapped. The parts that are no sums, differences
or products are evaluated as ever, with all that they do to the store.

`Run.wordArithmetic` puts together what holds of integers: what the operators compute, that all
integers of a machine stay in range, and that it does not matter when they are wrapped.
-/

namespace Treewalk

/-- The exact result of a sum, a difference or a product. -/
def Op.exact? : Op → Option (Int → Int → Int)
  | add => some (· + ·)
  | sub => some (· - ·)
  | mul => some (· * ·)
  | div | mod | gt | ge | lt | le | eq => none

/-- Whether an expression is a sum, a difference or a product. -/
def Expr.IsRingOperation : Expr → Prop
  | .binop op _ _ => op.exact?.isSome
  | _ => False

/-- How sums, differences and products evaluate if nothing is wrapped. The parts that are none of
these are evaluated to integers. -/
inductive EvaluatesExactly : Expr → ScopeId → Store → List Event → Int → Store → Prop where
  | part {e scope s log n s'} : ¬e.IsRingOperation → Evaluates e scope s log (.value (.int n)) s' →
      EvaluatesExactly e scope s log n s'
  | operation {op f l r scope s log₁ a s₁ log₂ b s'} : Op.exact? op = some f →
      EvaluatesExactly l scope s log₁ a s₁ → EvaluatesExactly r scope s₁ log₂ b s' →
      EvaluatesExactly (.binop op l r) scope s (log₁ ++ log₂) (f a b) s'

/-- Operands may be wrapped before a sum, a difference or a product is. -/
theorem Op.compute_wrap {op : Op} {f : Int → Int → Int} (h : op.exact? = some f) (a b : Int) :
    op.compute (Value.wrap a) (Value.wrap b) = some (.ofInt (f a b)) := by
  cases op with
  | add =>
    cases h
    simp only [compute, Value.ofInt, Value.wrap, Int.bmod_add_bmod, Int.add_bmod_bmod]
  | sub =>
    cases h
    simp only [compute, Value.ofInt, Value.wrap, Int.bmod_sub_bmod, Int.sub_bmod_bmod]
  | mul =>
    cases h
    simp only [compute, Value.ofInt, Value.wrap, Int.bmod_mul_bmod, Int.mul_bmod_bmod]
  | div | mod | gt | ge | lt | le | eq => cases h

section

variable {e : Expr} {scope : ScopeId} {s s' : Store} {log : List Event}

/-- What the rules derive stays in range. -/
theorem inRange_of_evaluates {v : Value} (h : Evaluates e scope s log (.value v) s')
    (hs : s.ValuesAre Value.InRange) (he : e.InRange) :
    v.InRange ∧ s'.ValuesAre Value.InRange := by
  let m : Machine := { Machine.initial 0 false with store := s }
  have hm : m.InRange := ⟨hs, nofun⟩
  obtain ⟨n, hn⟩ := Run.exists_eval (m := m) h
  obtain ⟨_, m', heval, rfl, rfl, -⟩ := hn n (Nat.le_refl n) n (Nat.le_refl n)
  obtain ⟨hm', hv⟩ := Run.inRange_of_eval hm he heval
  exact ⟨hv v rfl, hm'.store⟩

/-- **Wrapping an exact result** gives what the rules give. -/
theorem evaluates_of_exactly {n : Int} (h : EvaluatesExactly e scope s log n s')
    (hs : s.ValuesAre Value.InRange) (he : e.InRange) :
    Evaluates e scope s log (.value (.ofInt n)) s' := by
  induction h with
  | part _ h =>
    obtain ⟨hn, -⟩ := inRange_of_evaluates h hs he
    rw [Value.ofInt, Value.wrap_of_mem (Value.inRange_int_iff.mp hn)]
    exact h
  | operation hop _ _ ihl ihr =>
    have hl := ihl hs he.2.1
    have hr := ihr (inRange_of_evaluates hl hs he.2.1).2 he.2.2
    exact .binop hl hr (Op.computes_iff.mpr (Op.compute_wrap hop _ _))

theorem exists_exactly_part {k : Int} (h : Evaluates e scope s log (.value (.int k)) s')
    (hs : s.ValuesAre Value.InRange) (he : e.InRange) (hring : ¬e.IsRingOperation) :
    ∃ n, EvaluatesExactly e scope s log n s' ∧ k = Value.wrap n := by
  obtain ⟨hk, -⟩ := inRange_of_evaluates h hs he
  exact ⟨k, .part hring h, (Value.wrap_of_mem (Value.inRange_int_iff.mp hk)).symm⟩

/-- An integer that the rules derive is an exact result, wrapped. -/
theorem exists_exactly {k : Int} (h : Evaluates e scope s log (.value (.int k)) s')
    (hs : s.ValuesAre Value.InRange) (he : e.InRange) :
    ∃ n, EvaluatesExactly e scope s log n s' ∧ k = Value.wrap n := by
  induction e using Expr.rec (motive_2 := fun _ => True) (motive_3 := fun _ => True)
    (motive_4 := fun _ => True) generalizing s log k s' with
  | binop op l r ihl ihr =>
    cases hop : op.exact? with
    | none => exact exists_exactly_part h hs he (by simp [Expr.IsRingOperation, hop])
    | some f =>
      cases h with
      | binop hl hr hv =>
        obtain ⟨a, hea, rfl⟩ := ihl hl hs he.2.1
        obtain ⟨b, heb, rfl⟩ := ihr hr (inRange_of_evaluates hl hs he.2.1).2 he.2.2
        rw [Op.computes_iff, Op.compute_wrap hop] at hv
        cases hv
        exact ⟨f a b, .operation hop hea heb, rfl⟩
  | literal | var | print | cond | loop | seq | decl | assign | func | call =>
    exact exists_exactly_part h hs he id
  | _ => trivial

end

/-! ## Evaluation -/

namespace Run

variable {rounds depth : Nat} {e l r : Expr} {scope : ScopeId} {m m₁ m₂ : Machine}

/-- A binary operation combines the values of its operands. -/
theorem eval_binop_of_done {op : Op} {v w : Value}
    (hl : eval rounds depth l scope { m with current := .node (.binop op l r) } = (.done v, m₁))
    (hr : eval rounds depth r scope m₁ = (.done w, m₂)) :
    eval rounds (depth + 1) (.binop op l r) scope m =
      combine op v w { m₂ with current := .node (.binop op l r) } := by
  unfold eval
  simp only [bind_apply, look, change, hl, hr]

/-- **Arithmetic is that of 32-bit words.** A binary operation on integers of the range gives what
it computes on words, or fails where it divides by zero, and division obeys its laws. All integers
of a machine and of what is evaluated in it stay in range, and from a machine in which there are
none yet. An integer that an expression gives is the exact result of its sums, differences and
products, wrapped once. -/
theorem wordArithmetic :
    (∀ (rounds depth : Nat) (op : Op) (l r : Expr) (scope : ScopeId) (m m₁ m₂ : Machine)
        (a b : Int),
      Value.IsInt32 a → Value.IsInt32 b →
      eval rounds depth l scope { m with current := .node (.binop op l r) } =
        (.done (.int a), m₁) →
      eval rounds depth r scope m₁ = (.done (.int b), m₂) →
      eval rounds (depth + 1) (.binop op l r) scope m =
        (match op.onWords (.ofInt 32 a) (.ofInt 32 b) with
          | some v => .done v
          | none => .failed (.divisionByZero op a),
          { m₂ with current := .node (.binop op l r) })) ∧
    (∀ a b : Int, Value.IsInt32 a → Value.IsInt32 b → Op.DividesWith a b) ∧
    (∀ (keep : Int) (tracing : Bool), (Machine.initial keep tracing).InRange) ∧
    (∀ (rounds depth : Nat) (e : Expr) (scope : ScopeId) (m m' : Machine) (outcome : Outcome Value),
      m.InRange → e.InRange → eval rounds depth e scope m = (outcome, m') →
      m'.InRange ∧ ∀ v, outcome = .done v → v.InRange) ∧
    ∀ (e : Expr) (scope : ScopeId) (m : Machine) (k : Int) (s' : Store), m.InRange → e.InRange →
      ((∃ rounds depth m', eval rounds depth e scope m = (.done (.int k), m') ∧ m'.store = s') ↔
        ∃ log n, EvaluatesExactly e scope m.store log n s' ∧ k = Value.wrap n) := by
  refine ⟨?_, fun a b ha hb => Op.dividesWith ha hb, Machine.inRange_initial,
    fun _ _ _ _ _ _ _ hm he h => inRange_of_eval hm he h, ?_⟩
  · intro rounds depth op l r scope m m₁ m₂ a b ha hb hl hr
    rw [eval_binop_of_done hl hr, combine, Op.compute_eq_onWords op ha hb]
    cases op.onWords (.ofInt 32 a) (.ofInt 32 b) <;> rfl
  · intro e scope m k s' hm he
    constructor
    · rintro ⟨rounds, depth, m', heval, rfl⟩
      obtain ⟨log, hlog, -⟩ := exists_log_of_done heval
      obtain ⟨n, hn, hk⟩ := exists_exactly hlog hm.store he
      exact ⟨log, n, hn, hk⟩
    · rintro ⟨log, n, hn, rfl⟩
      obtain ⟨bound, hbound⟩ := exists_eval (evaluates_of_exactly hn hm.store he)
      obtain ⟨_, m', heval, rfl, hs', -⟩ := hbound bound (Nat.le_refl _) bound (Nat.le_refl _)
      exact ⟨bound, bound, m', heval, hs'⟩

/-- `(2147483647 + 1) * 3 - 1`, in which every operation leaves the range, and the quotient that
does. -/
theorem wordArithmetic_leaves_range :
    let max : Expr := .literal (.int 2147483647)
    let one : Expr := .literal (.int 1)
    let sum : Expr := .binop .add max one
    let e : Expr := .binop .sub (.binop .mul sum (.literal (.int 3))) one
    let m := Machine.initial 10 false
    let m' := (eval 5 5 e 0 m).2
    Value.IsInt32 2147483647 ∧ Value.IsInt32 1 ∧
      eval 5 4 max 0 { m with current := .node sum } =
        (.done (.int 2147483647), { m with current := .node max }) ∧
      eval 5 4 one 0 { m with current := .node max } =
        (.done (.int 1), { m with current := .node one }) ∧
      eval 5 5 sum 0 m = (.done (.int (-2147483648)), { m with current := .node sum }) ∧
      Op.DividesWith Value.intMin (-1) ∧
      m.InRange ∧ e.InRange ∧ eval 5 5 e 0 m = (.done (.int 2147483647), m') ∧ m'.InRange ∧
      ∃ log n, EvaluatesExactly e 0 m.store log n m'.store ∧ 2147483647 = Value.wrap n := by
  intro max one sum e m m'
  obtain ⟨hbinop, hdivision, hinitial, hrange, hexact⟩ := wordArithmetic
  have hmax : Value.IsInt32 2147483647 := by decide
  have hone : Value.IsInt32 1 := by decide
  have hm : m.InRange := hinitial 10 false
  have he : e.InRange := by
    simp [e, sum, max, one, Expr.InRange, Expr.Everywhere, Expr.LiteralInRange, Value.Everywhere,
      Value.IsInt32, Value.intMin, Value.intMax]
  have heval : eval 5 5 e 0 m = (.done (.int 2147483647), m') := rfl
  refine ⟨hmax, hone, rfl, rfl, ?_, hdivision _ _ (by decide) (by decide), hm, he, heval, ?_, ?_⟩
  · exact hbinop 5 4 .add max one 0 m { m with current := .node max }
      { m with current := .node one } _ _ hmax hone rfl rfl
  · exact (hrange 5 5 e 0 m m' _ hm he heval).1
  · exact (hexact e 0 m _ m'.store hm he).mp ⟨5, 5, m', heval, rfl⟩

end Run

end Treewalk
