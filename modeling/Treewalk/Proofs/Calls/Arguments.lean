import Treewalk.Proofs.Calls.Parameters
import Treewalk.Proofs.Semantics.OlderCalls

/-!
# The arguments of a call

A call with any arguments does the same as one with the arguments fitted to the parameters. All that
differs is what was recorded about the call: the trace, and the arguments in its frame as long as
the call is open (`SameCall`). Before the body runs, a call makes a scope that binds the parameters
to the fitted arguments and changes no other one, or it fails because a parameter is repeated; which
of these happens, and what the failure names, depends on the parameters alone
(`Run.callClosure_arguments`).

The two calls run the same body, in machines that differ in the trace and in the innermost open
call. Neither is read by evaluation: the trace is only written to, and calls that are open stay
below those that the body enters.
-/

namespace Treewalk

/-! ## The trace is not read -/

/-- Whether two machines differ at most in the trace. -/
def Machine.Retraced (m m' : Machine) : Prop := ∃ trace, m' = { m with trace := trace }

theorem Pairing.lawful_retraced : (sharing Machine.Retraced).Lawful := by
  refine lawful_sharing ?look ?note ?writeLine ?push ?pop ?set ?alloc
  case note =>
    rintro m _ line ⟨trace, rfl⟩
    obtain ⟨trace₁, h₁⟩ := Run.note_apply line m
    obtain ⟨trace₂, h₂⟩ := Run.note_apply line { m with trace := trace }
    rw [h₁, h₂]
    exact ⟨trace₂, rfl⟩
  case pop =>
    rintro m _ ⟨trace, rfl⟩
    exact ⟨trace, rfl⟩
  case look | writeLine | push | alloc =>
    rintro m _ _ ⟨trace, rfl⟩
    exact ⟨trace, rfl⟩
  case set =>
    rintro m _ i name v ⟨trace, rfl⟩
    exact ⟨trace, rfl⟩

/-! ## Two calls -/

/-- Whether two ends, of calls entered above the same older ones, differ at most in the trace and
in the call that is still open if there is no value. -/
inductive SameCall (older : List Frame) (call call' : Frame) :
    Outcome Value × Machine → Outcome Value × Machine → Prop where
  | left {v m} (trace : Array Text) : m.frames = older →
    SameCall older call call' (.done v, m) (.done v, { m with trace := trace })
  | open {outcome m inner} (trace : Array Text) : (∀ v, outcome ≠ .done v) →
    m.frames = inner ++ call :: older →
    SameCall older call call' (outcome, m)
      (outcome, { m with frames := inner ++ call' :: older, trace := trace })

/-- The machine in which a call was entered and its scope was made. -/
def Machine.entered (m : Machine) (call : Frame) (bindings : List (Text × Value))
    (trace : Array Text) : Machine :=
  { m.withScope call.scope bindings with frames := call :: m.frames, trace := trace }

namespace Run

variable {rounds depth : Nat} {site : Option Expr} {name : Text} {params : List Text}
  {body : Option Expr} {outer : ScopeId} {args : List Value} {m : Machine}

/-- A call does what the run of its body does, in a machine in which it was noted and entered. -/
theorem callClosure_apply (site : Option Expr) (name : Text) (params : List Text)
    (body : Option Expr) (outer : ScopeId) (args : List Value) (m : Machine) :
    ∃ trace, ∀ ev, callClosure ev site name params body outer args m =
      (applyClosure ev params body outer args >>= fun v => pop >>= fun _ => result v)
        { m with
          frames := ⟨name, params, body, outer, args, site⟩ :: m.frames
          trace := trace } := by
  obtain ⟨trace, hnote⟩ := noteCall_apply name params args m
  refine ⟨trace, fun ev => ?_⟩
  rw [callClosure_eq, bind_apply, hnote]
  rfl

/-- The run of a body above the call that was entered and the older ones. -/
theorem applyClosure_above {outcome : Outcome Value} {m₁ : Machine} {trace : Array Text}
    (h : applyClosure (eval rounds depth) params body outer args
      { m with frames := [], trace := trace } = (outcome, m₁)) (older : List Frame) :
    applyClosure (eval rounds depth) params body outer args
      { m with frames := older, trace := trace } = (outcome, m₁.above older) := by
  have habove := ignoresOlder_applyClosure (ignoresOlder_eval rounds depth) params body outer args
    { m with frames := [], trace := trace } older
  rwa [h] at habove

/-- The run of a body does not read the trace. -/
theorem applyClosure_retraced (rounds depth : Nat) (params : List Text) (body : Option Expr)
    (outer : ScopeId) (args : List Value) {m' : Machine} (h : m.Retraced m') :
    ∃ outcome m₁ m₁', applyClosure (eval rounds depth) params body outer args m = (outcome, m₁) ∧
      applyClosure (eval rounds depth) params body outer args m' = (outcome, m₁') ∧
      m₁.Retraced m₁' := by
  have hstore : m'.store = m.store := by
    obtain ⟨trace, rfl⟩ := h
    rfl
  have hbody : Option.Rel (Pairing.sharing Machine.Retraced).expr body body :=
    rel_self fun _ _ => ⟨rfl, trivial⟩
  have hargs : List.Forall₂ (Pairing.sharing Machine.Retraced).Values args args :=
    List.forall₂_same.mpr fun v _ =>
      Likeness.values_self (v.bodyIs_of_forall fun _ => ⟨rfl, trivial⟩)
  have hev := Pairing.lawful_retraced.evaluatorsMirror_sharing rounds depth
  exact (Pairing.mirrors_applyClosure Pairing.lawful_retraced hev params hbody rfl hargs).alike
    hstore h

/-- **Surplus and missing arguments** make no difference to what a call does. -/
theorem sameCall_fitted (rounds depth : Nat) (site : Option Expr) (name : Text)
    (params : List Text) (body : Option Expr) (outer : ScopeId) (args : List Value) (m : Machine) :
    SameCall m.frames ⟨name, params, body, outer, args, site⟩
      ⟨name, params, body, outer, fitted params args, site⟩
      (callClosure (eval rounds depth) site name params body outer args m)
      (callClosure (eval rounds depth) site name params body outer (fitted params args) m) := by
  obtain ⟨trace, hcall⟩ := callClosure_apply site name params body outer args m
  obtain ⟨trace', hcall'⟩ := callClosure_apply site name params body outer (fitted params args) m
  have hstart : Machine.Retraced { m with frames := [], trace := trace }
      { m with frames := [], trace := trace' } := ⟨trace', rfl⟩
  obtain ⟨outcome, m₁, _, hrun, hrun', trace₁, rfl⟩ :=
    applyClosure_retraced rounds depth params body outer args hstart
  rw [hcall, hcall', applyClosure_fitted, bind_apply, bind_apply, applyClosure_above hrun,
    applyClosure_above hrun']
  cases outcome with
  | done v =>
    -- The body has left the calls that it entered, and so the call is on top when it is left.
    have hframes : m₁.frames = [] := (frames_applyClosure params body outer args _).of_done hrun
    let call (vs : List Value) : Frame := ⟨name, params, body, outer, vs, site⟩
    show SameCall m.frames (call args) (call (fitted params args))
      (.done v, { m₁ with frames := (m₁.frames ++ call args :: m.frames).tail })
      (.done v, { m₁ with
        frames := (m₁.frames ++ call (fitted params args) :: m.frames).tail, trace := trace₁ })
    rw [hframes]
    exact .left trace₁ rfl
  | failed | exhausted | unfinished => exact .open trace₁ nofun rfl

/-- A call whose parameters are distinct enters, runs its body in a scope that binds them, and
leaves. -/
theorem callClosure_of_nodup (h : params.Nodup) (site : Option Expr) (name : Text)
    (body : Option Expr) (outer : ScopeId) (args : List Value) (m : Machine) :
    ∃ trace, ∀ ev, callClosure ev site name params body outer args m =
      (evalBlock ev body m.store.size >>= fun v => pop >>= fun _ => result v)
        (m.entered ⟨name, params, body, outer, args, site⟩ (params.zip (fitted params args))
          trace) := by
  obtain ⟨trace, hcall⟩ := callClosure_apply site name params body outer args m
  refine ⟨trace, fun ev => ?_⟩
  rw [hcall, bind_apply, bind_apply, applyClosure_of_nodup h]
  rfl

/-- A call with a repeated parameter fails as soon as it comes to it. -/
theorem callClosure_of_repeat {before after : List Text} {p : Text} (hbefore : before.Nodup)
    (hp : p ∈ before) (site : Option Expr) (name : Text) (body : Option Expr) (outer : ScopeId)
    (args : List Value) (m : Machine) :
    ∃ trace, ∀ ev, callClosure ev site name (before ++ p :: after) body outer args m =
      (.failed (.duplicateVariable p),
        m.entered ⟨name, before ++ p :: after, body, outer, args, site⟩
          (before.zip (fitted before args)) trace) := by
  obtain ⟨trace, hcall⟩ := callClosure_apply site name (before ++ p :: after) body outer args m
  refine ⟨trace, fun ev => ?_⟩
  rw [hcall, bind_apply, applyClosure_of_repeat hbefore hp]
  rfl

/-- **What a call does with its arguments.** It does the same as with the arguments fitted to the
parameters, but for the trace and the arguments that are recorded for the call while it is open. If
no parameter is repeated, the body starts in a new scope that binds the parameters to the fitted
arguments, with all other scopes as they were. If one is, the call fails whatever evaluates its
body; the failure names the first repeated parameter. -/
theorem callClosure_arguments (rounds depth : Nat) (site : Option Expr) (name : Text)
    (params : List Text) (body : Option Expr) (outer : ScopeId) (args : List Value) (m : Machine) :
    let call : Frame := ⟨name, params, body, outer, args, site⟩
    let takes := fitted params args
    SameCall m.frames call { call with args := takes }
      (callClosure (eval rounds depth) site name params body outer args m)
      (callClosure (eval rounds depth) site name params body outer takes m) ∧
    (params.Nodup → ∃ trace, ∀ ev, callClosure ev site name params body outer args m =
      (evalBlock ev body m.store.size >>= fun v => pop >>= fun _ => result v)
        (m.entered call (params.zip takes) trace)) ∧
    (∀ p, FirstRepeat params p ↔
      ∀ ev, (callClosure ev site name params body outer args m).1 =
        .failed (.duplicateVariable p)) ∧
    (∀ p, FirstRepeat params p → ∃ bound trace, ∀ ev,
      callClosure ev site name params body outer args m =
        (.failed (.duplicateVariable p), m.entered call bound trace)) ∧
    ((∃ p, FirstRepeat params p) ↔ ¬params.Nodup) := by
  have hfails : ∀ p, FirstRepeat params p → ∃ bound trace, ∀ ev,
      callClosure ev site name params body outer args m = (.failed (.duplicateVariable p),
        m.entered ⟨name, params, body, outer, args, site⟩ bound trace) := by
    rintro p ⟨before, after, rfl, hbefore, hp⟩
    exact ⟨_, callClosure_of_repeat hbefore hp site name body outer args m⟩
  refine ⟨sameCall_fitted .., fun h => callClosure_of_nodup h .., fun p => ⟨fun h ev => ?_, ?_⟩,
    hfails, exists_firstRepeat_iff⟩
  · obtain ⟨bound, trace, hcall⟩ := hfails p h
    rw [hcall]
  · intro h
    by_cases hnodup : params.Nodup
    · -- A body that just gives a value does not fail.
      obtain ⟨trace, hcall⟩ := callClosure_of_nodup hnodup site name body outer args m
      have hfailed := h fun _ _ => result .null
      rw [hcall] at hfailed
      cases body <;> cases hfailed
    · obtain ⟨q, hq⟩ := exists_firstRepeat_iff.mpr hnodup
      obtain ⟨bound, trace, hcall⟩ := hfails q hq
      have hsame := h fun _ _ => result .null
      rw [hcall] at hsame
      cases hsame
      exact hq

/-- A call with an argument too few, and one whose third parameter is the first one again. -/
theorem callClosure_arguments_missing_and_repeated :
    let m := Machine.initial 10 false
    let body : Option Expr := some (.var "y")
    let call (args : List Value) : Frame := ⟨"f", ["x", "y"], body, 0, args, none⟩
    SameCall [] (call [.int 1]) (call [.int 1, .null])
        (callClosure (eval 5 5) none "f" ["x", "y"] body 0 [.int 1] m)
        (callClosure (eval 5 5) none "f" ["x", "y"] body 0 [.int 1, .null] m) ∧
      (["x", "y"] : List Text).Nodup ∧
      (∃ trace, ∀ ev, callClosure ev none "f" ["x", "y"] body 0 [.int 1] m =
        (evalBlock ev body 1 >>= fun v => pop >>= fun _ => result v)
          (m.entered (call [.int 1]) [("x", .int 1), ("y", .null)] trace)) ∧
      FirstRepeat ["x", "y", "x"] "x" ∧
      ∀ ev, (callClosure ev none "f" ["x", "y", "x"] body 0 [] m).1 =
        .failed (.duplicateVariable "x") := by
  intro m body call
  have hdistinct : (["x", "y"] : List Text).Nodup := by decide
  have hrepeat : FirstRepeat ["x", "y", "x"] "x" :=
    ⟨["x", "y"], [], rfl, hdistinct, List.mem_cons_self⟩
  obtain ⟨hsame, hstarts, -⟩ :=
    callClosure_arguments 5 5 none "f" ["x", "y"] body 0 [.int 1] m
  obtain ⟨-, -, hfails, -⟩ := callClosure_arguments 5 5 none "f" ["x", "y", "x"] body 0 [] m
  exact ⟨hsame, hdistinct, hstarts hdistinct, hrepeat, (hfails "x").mp hrepeat⟩

end Run

end Treewalk
