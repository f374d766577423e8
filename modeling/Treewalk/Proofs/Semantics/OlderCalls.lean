import Treewalk.Proofs.Semantics.Adequacy

/-!
# Older calls

What an evaluation does does not depend on the calls that were open before it: the older calls stay
below those that the evaluation leaves open (`Run.ignoresOlder_eval`).

A single step may well depend on them, for leaving a call takes away an older one if there is no
newer one. So the rule for a call as a whole is needed (`Run.ignoresOlder_callClosure`): its body
leaves the calls that it enters, and the call that is left is the one that was entered.
-/

namespace Treewalk

/-- The machine with older calls below those that are open. -/
def Machine.above (m : Machine) (older : List Frame) : Machine :=
  { m with frames := m.frames ++ older }

namespace Run

variable {α β : Type}

/-- Whether a step does the same whatever older calls there are. -/
def IgnoresOlder (x : Run α) : Prop :=
  ∀ m older, x (m.above older) = ((x m).1, (x m).2.above older)

/-- **One step after another.** -/
theorem IgnoresOlder.bind {x : Run α} {f : α → Run β} (h : x.IgnoresOlder)
    (hf : ∀ a, (f a).IgnoresOlder) : (x >>= f).IgnoresOlder := by
  intro m older
  rw [bind_apply, bind_apply, h m older]
  rcases x m with ⟨a | _ | _ | _, m'⟩
  · exact hf a m' older
  · rfl
  · rfl
  · rfl

theorem ignoresOlder_result (a : α) : (result a).IgnoresOlder := fun _ _ => rfl

theorem ignoresOlder_fail (fault : Fault) : (fail fault : Run α).IgnoresOlder := fun _ _ => rfl

theorem ignoresOlder_look (e : Expr) : (look e).IgnoresOlder := fun _ _ => rfl

theorem ignoresOlder_writeLine (line : Text) : (writeLine line).IgnoresOlder := fun _ _ => rfl

theorem ignoresOlder_resolve (scope : ScopeId) (name : Text) :
    (resolve scope name).IgnoresOlder :=
  fun _ _ => rfl

theorem ignoresOlder_update (scope : ScopeId) (name : Text) (v : Value) :
    (update scope name v).IgnoresOlder :=
  fun _ _ => rfl

theorem ignoresOlder_newScope (outer : ScopeId) : (newScope outer).IgnoresOlder := fun _ _ => rfl

theorem ignoresOlder_note (line : Unit → Text) : (note line).IgnoresOlder := by
  intro m older
  unfold note change
  cases h : m.tracing <;> simp [Machine.above, h]

theorem ignoresOlder_declare (scope : ScopeId) (name : Text) (v : Value) :
    (declare scope name v).IgnoresOlder := by
  intro m older
  cases h : m.store.binds scope name with
  | true =>
    have habove : (m.above older).store.binds scope name = true := h
    rw [declare_of_bound h, declare_of_bound habove]
  | false =>
    have habove : (m.above older).store.binds scope name = false := h
    rw [declare_of_unbound h, declare_of_unbound habove]
    rfl

theorem ignoresOlder_combine (op : Op) (v w : Value) : (combine op v w).IgnoresOlder := by
  intro m older
  unfold combine
  split
  · rename_i a b
    cases op.compute a b <;> rfl
  · rfl

theorem ignoresOlder_demandBool (construct : Construct) (v : Value) :
    (demandBool construct v).IgnoresOlder := by
  cases v <;> exact fun _ _ => rfl

theorem ignoresOlder_noteCall (name : Text) (params : List Text) (args : List Value) :
    (noteCall name params args).IgnoresOlder := by
  refine (ignoresOlder_note _).bind fun _ => ?_
  split
  · exact ignoresOlder_note _
  · exact ignoresOlder_result ()

theorem ignoresOlder_bindParams (scope : ScopeId) (params : List Text) (args : List Value) :
    (bindParams scope params args).IgnoresOlder := by
  induction params generalizing args with
  | nil => exact ignoresOlder_result ()
  | cons p ps ih =>
    rw [bindParams_cons]
    exact (ignoresOlder_declare scope p _).bind fun _ => ih _

/-! ## Parts of evaluation -/

section

variable {ev : Expr → ScopeId → Run Value} (hev : ∀ e scope, (ev e scope).IgnoresOlder)
include hev

theorem ignoresOlder_evalBlock (block : Option Expr) (scope : ScopeId) :
    (evalBlock ev block scope).IgnoresOlder := by
  cases block with
  | none => exact ignoresOlder_result Value.null
  | some body => exact hev body scope

theorem ignoresOlder_evalStatements (scope : ScopeId) (last : Value) (es : List Expr) :
    (evalStatements ev scope last es).IgnoresOlder := by
  induction es generalizing last with
  | nil => exact ignoresOlder_result last
  | cons e es ih => exact (hev e scope).bind fun v => ih v

theorem ignoresOlder_evalArgs (scope : ScopeId) (es : List Expr) :
    (evalArgs ev scope es).IgnoresOlder := by
  induction es with
  | nil => exact ignoresOlder_result []
  | cons e es ih =>
    exact (hev e scope).bind fun v => ih.bind fun vs => ignoresOlder_result (v :: vs)

theorem ignoresOlder_evalLoop (test : Expr) (body : Option Expr) (scope : ScopeId)
    (rounds count : Nat) (last : Value) :
    (evalLoop ev test body scope rounds count last).IgnoresOlder := by
  induction rounds generalizing count last with
  | zero => exact fun _ _ => rfl
  | succ rounds ih =>
    refine (hev test scope).bind fun c => (ignoresOlder_demandBool .loop c).bind fun holds => ?_
    cases holds with
    | true => exact (ignoresOlder_evalBlock hev body scope).bind fun v => ih (count + 1) v
    | false => exact (ignoresOlder_note _).bind fun _ => ignoresOlder_result last

theorem ignoresOlder_applyClosure (params : List Text) (body : Option Expr) (outer : ScopeId)
    (args : List Value) : (applyClosure ev params body outer args).IgnoresOlder :=
  (ignoresOlder_newScope outer).bind fun inner =>
    (ignoresOlder_bindParams inner params args).bind fun _ => ignoresOlder_evalBlock hev body inner

end

/-! ## Calls -/

/-- Parameters are bound without entering a call. -/
theorem frames_bindParams (scope : ScopeId) (params : List Text) (args : List Value) (m : Machine) :
    (bindParams scope params args).Ends m (fun _ m' => m'.frames = m.frames) (fun _ _ => True)
      fun _ => True := by
  induction params generalizing args m with
  | nil => exact rfl
  | cons p ps ih =>
    rw [bindParams_cons]
    cases h : m.store.binds scope p with
    | true => exact .stop (declare_of_bound h _) trivial
    | false => exact .step (declare_of_unbound h _) (ih _ _)

section

variable {rounds depth : Nat}

/-- A block leaves the calls that it enters, if it has a value. -/
theorem frames_evalBlock (block : Option Expr) (scope : ScopeId) (m : Machine) :
    (evalBlock (eval rounds depth) block scope).Ends m (fun _ m' => m'.frames = m.frames)
      (fun _ _ => True) fun _ => True := by
  cases block with
  | none => exact rfl
  | some body =>
    unfold Ends evalBlock
    dsimp only
    rcases h : eval rounds depth body scope m with ⟨_ | _ | _ | _, m'⟩
    · exact frames_of_done h
    · trivial
    · trivial
    · trivial

theorem frames_applyClosure (params : List Text) (body : Option Expr) (outer : ScopeId)
    (args : List Value) (m : Machine) :
    (applyClosure (eval rounds depth) params body outer args).Ends m
      (fun _ m' => m'.frames = m.frames) (fun _ _ => True) fun _ => True := by
  have hnew : newScope outer m =
      (.done m.store.size, { m with store := (m.store.alloc (some outer)).2 }) := rfl
  refine .step hnew ?_
  refine (frames_bindParams _ params args _).bind fun _ m₁ (hm₁ : m₁.frames = m.frames) => ?_
  exact (frames_evalBlock body _ m₁).imp (fun _ _ h => h.trans hm₁) (fun _ _ h => h) fun _ h => h

/-- A step between entering and leaving a call, if it leaves the calls that it enters itself. -/
theorem ignoresOlder_enclosed {x : Run Value} (h : x.IgnoresOlder)
    (hframes : ∀ m, x.Ends m (fun _ m' => m'.frames = m.frames) (fun _ _ => True) fun _ => True)
    (call : Frame) :
    (push call >>= fun _ => x >>= fun v => pop >>= fun _ => result v).IgnoresOlder := by
  intro m older
  let m₁ : Machine := { m with frames := call :: m.frames }
  show (x >>= fun v => pop >>= fun _ => result v) (m₁.above older) =
    (((x >>= fun v => pop >>= fun _ => result v) m₁).1,
      ((x >>= fun v => pop >>= fun _ => result v) m₁).2.above older)
  rw [bind_apply, bind_apply, h m₁ older]
  rcases hx : x m₁ with ⟨v | _ | _ | _, m₂⟩
  · -- The call that was entered is on top again, and so it is the one that is taken away.
    have hm₂ : m₂.frames = call :: m.frames := (hframes m₁).of_done hx
    show (Outcome.done v, { m₂.above older with frames := (m₂.frames ++ older).tail }) =
      (Outcome.done v, { m₂ with frames := m₂.frames.tail }.above older)
    rw [hm₂]
    rfl
  · rfl
  · rfl
  · rfl

/-- **A whole call** does the same whatever older calls there are: it takes away no call but its
own. -/
theorem ignoresOlder_callClosure (hev : ∀ e scope, (eval rounds depth e scope).IgnoresOlder)
    (site : Option Expr) (name : Text) (params : List Text) (body : Option Expr) (outer : ScopeId)
    (args : List Value) :
    (callClosure (eval rounds depth) site name params body outer args).IgnoresOlder := by
  rw [callClosure_eq]
  refine (ignoresOlder_noteCall name params args).bind fun _ => ?_
  exact ignoresOlder_enclosed (ignoresOlder_applyClosure hev params body outer args)
    (frames_applyClosure params body outer args) _

end

/-! ## Expressions -/

/-- **An evaluation does the same whatever older calls there are.** -/
theorem ignoresOlder_eval (rounds depth : Nat) (e : Expr) (scope : ScopeId) :
    (eval rounds depth e scope).IgnoresOlder := by
  induction depth generalizing e scope with
  | zero => exact fun _ _ => rfl
  | succ depth hev =>
    unfold eval
    refine (ignoresOlder_look e).bind fun _ => ?_
    cases e with
    | literal v => exact ignoresOlder_result v
    | var name => exact ignoresOlder_resolve scope name
    | print a =>
      refine (hev a scope).bind fun v => ?_
      exact (ignoresOlder_writeLine v.text).bind fun _ => ignoresOlder_result v
    | binop op l r =>
      refine (hev l scope).bind fun v => (hev r scope).bind fun w => ?_
      exact (ignoresOlder_look _).bind fun _ => ignoresOlder_combine op v w
    | cond test thn els =>
      refine (hev test scope).bind fun c => (ignoresOlder_demandBool .choice c).bind fun holds => ?_
      cases holds with
      | true => exact ignoresOlder_evalBlock hev thn scope
      | false => exact ignoresOlder_evalBlock hev els scope
    | loop test body => exact ignoresOlder_evalLoop hev test body scope rounds 0 .null
    | seq a b => exact ignoresOlder_evalStatements hev scope .null _
    | decl name init =>
      refine (hev init scope).bind fun v => (ignoresOlder_look _).bind fun _ => ?_
      refine (ignoresOlder_declare scope name v).bind fun _ => ?_
      exact (ignoresOlder_note _).bind fun _ => ignoresOlder_resolve scope name
    | assign name rhs =>
      refine (hev rhs scope).bind fun v => (ignoresOlder_update scope name v).bind fun _ => ?_
      exact (ignoresOlder_note _).bind fun _ => ignoresOlder_resolve scope name
    | func params body => exact ignoresOlder_result _
    | call callee args =>
      refine (hev callee scope).bind fun f => ?_
      cases f with
      | closure params body outer =>
        refine (ignoresOlder_evalArgs hev scope args).bind fun vs => ?_
        exact ignoresOlder_callClosure hev _ _ params body outer vs
      | int | bool | null => exact (ignoresOlder_look _).bind fun _ => ignoresOlder_fail _

end Run

end Treewalk
