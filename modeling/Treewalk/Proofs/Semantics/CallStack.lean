import Treewalk.Proofs.Semantics.Adequacy

/-!
# The calls that an evaluation leaves open

An evaluation that gives a value leaves the calls as they were. One that fails adds the calls that
it entered and did not leave, and these lie inside each other: the first one was entered at a part
of the expression, and each other one at a part of the body of the one before (`eval_callStack`).

`OpenCalls` tells how the open calls of a failing evaluation came about: where the evaluation
reached the call expression, what its callee and its arguments evaluated to there, and how the body
went on from the scope that was made for it. `CallPath` keeps of this what concerns the frames
alone.
-/

namespace Treewalk

/-- Whether an evaluation comes to entering a call, the callee and all arguments being evaluated. -/
inductive Enters (e : Expr) (scope : ScopeId) (s : Store) : List Event → Frame → Store → Prop where
  | mk {log₀ callee args s₀ log₁ ps b outer s₁ log₂ vs s₂} :
      Reaches e scope s log₀ (.call callee args) s₀ →
      Evaluates callee scope s₀ log₁ (.value (.closure ps b outer)) s₁ →
      EvaluatesArgs args scope s₁ log₂ (.value vs) s₂ →
      Enters e scope s (log₀ ++ (log₁ ++ log₂))
        ⟨Run.calleeName callee, ps, b, outer, vs, some (.call callee args)⟩ s₂

/-- How the calls came about that an evaluation entered and did not leave, the outermost first. -/
inductive OpenCalls : Expr → ScopeId → Store → List Event → List Frame → Prop where
  | none {e scope s log} : Quiet log → OpenCalls e scope s log []
  /-- The parameters of the innermost call could not be bound. -/
  | unbound {e scope s log call s₁} : Enters e scope s log call s₁ →
      OpenCalls e scope s (log ++ [.entered call]) [call]
  | body {e scope s log call s₁ inner s₂ s₃ b log' calls} : Enters e scope s log call s₁ →
      s₁.alloc (some call.scope) = (inner, s₂) →
      Binds inner call.params call.args s₂ none s₃ →
      call.body = some b →
      OpenCalls b inner s₃ log' calls →
      OpenCalls e scope s (log ++ .entered call :: log') (call :: calls)

/-- Whether a call was entered at a part of an expression: under the name of the variable that is
called there, if it is one, and with a value for each argument. -/
def Frame.IsCallIn (call : Frame) (e : Expr) : Prop :=
  ∃ callee args, call.site = some (.call callee args) ∧ (Expr.call callee args).Part e ∧
    (∀ x, callee = .var x → call.name = x) ∧
    ((∀ x, callee ≠ .var x) → call.name = "<anonymous>") ∧
    call.args.length = args.length

/-- Whether calls lie inside each other, the first one inside a block and each other one inside the
body of the one before. -/
inductive CallPath : Option Expr → List Frame → Prop where
  | nil {b} : CallPath b []
  | cons {e call calls} : call.IsCallIn e → CallPath call.body calls →
      CallPath (some e) (call :: calls)

variable {e p : Expr} {scope : ScopeId} {s s₁ s' : Store} {log log' : List Event} {call : Frame}
  {calls : List Frame}

/-! ## Calls as frames -/

theorem EvaluatesArgs.length_eq {es : List Expr} {vs : List Value}
    (h : EvaluatesArgs es scope s log (.value vs) s') : vs.length = es.length := by
  induction es generalizing s log vs with
  | nil =>
    cases h
    rfl
  | cons e es ih =>
    cases h with
    | cons _ hs => rw [List.length_cons, List.length_cons, ih hs]

theorem Enters.isCallIn (h : Enters e scope s log call s') : call.IsCallIn e := by
  cases h with
  | @mk _ callee args _ _ _ _ _ _ _ _ _ hreach _ hargs =>
    refine ⟨callee, args, rfl, hreach.part, ?_, ?_, hargs.length_eq⟩
    · rintro x rfl
      rfl
    · intro hvar
      cases callee with
      | var x => exact absurd rfl (hvar x)
      | _ => rfl

theorem Enters.quiet (h : Enters e scope s log call s') : Quiet log := by
  cases h with
  | mk hreach hcallee hargs =>
    exact hreach.quiet.append (Quiet.append (evaluates_quiet hcallee) (evaluatesArgs_quiet hargs))

namespace OpenCalls

/-- The open calls lie inside each other. -/
theorem callPath (h : OpenCalls e scope s log calls) : CallPath (some e) calls := by
  induction h with
  | none => exact .nil
  | unbound henters => exact .cons henters.isCallIn .nil
  | body henters _ _ hb _ ih => exact .cons henters.isCallIn (hb ▸ ih)

/-- The open calls are those that the log enters and does not leave. -/
theorem openCalls_eq (h : OpenCalls e scope s log calls) (before : List Frame) :
    openCalls before log = calls.reverse ++ before := by
  induction h generalizing before with
  | none hquiet => exact hquiet before
  | unbound henters =>
    rw [openCalls_append, henters.quiet]
    rfl
  | @body _ _ _ _ call _ _ _ _ _ log' calls henters _ _ _ _ ih =>
    -- What came before the call left nothing open, so the call lies directly on `before`.
    rw [openCalls_append, henters.quiet]
    show openCalls (call :: before) log' = (call :: calls).reverse ++ before
    rw [ih, List.reverse_cons, List.append_assoc, List.singleton_append]

theorem enters_of_takesUp (h : TakesUp e scope s log p s₁)
    (henters : Enters p scope s₁ log' call s') :
    Enters e scope s (log ++ log') call s' := by
  cases henters with
  | mk hreach hcallee hargs =>
    rw [← List.append_assoc]
    exact .mk (.step h hreach) hcallee hargs

/-- The calls that a part leaves open are left open by the whole. -/
theorem of_takesUp (hc : OpenCalls p scope s₁ log' calls) (h : TakesUp e scope s log p s₁) :
    OpenCalls e scope s (log ++ log') calls := by
  cases hc with
  | none hquiet => exact .none (h.quiet.append hquiet)
  | unbound henters =>
    rw [← List.append_assoc]
    exact .unbound (enters_of_takesUp h henters)
  | body henters halloc hbinds hb hc =>
    rw [← List.append_assoc]
    exact .body (enters_of_takesUp h henters) halloc hbinds hb hc

end OpenCalls

/-! ## Failing evaluations -/

mutual

/-- How the open calls of an evaluation that fails came about. -/
theorem evaluates_openCalls {e : Expr} {scope : ScopeId} {s s' : Store} {log : List Event}
    {r : Ending Value} (h : Evaluates e scope s log r s') :
    r.IfError (∃ calls, OpenCalls e scope s log calls) :=
  match h with
  | .literal => trivial
  | .var => trivial
  | .func => trivial
  | .firstError hfirst h => by
    obtain ⟨calls, hc⟩ := evaluates_openCalls h
    exact ⟨calls, hc.of_takesUp (.first hfirst)⟩
  | .print _ => trivial
  | .binopError hl hr => by
    obtain ⟨calls, hc⟩ := evaluates_openCalls hr
    exact ⟨calls, hc.of_takesUp (.right hl)⟩
  | .binop _ _ _ => trivial
  | .binopZero hl hr _ => ⟨[], .none (Quiet.append (evaluates_quiet hl) (evaluates_quiet hr))⟩
  | .binopKinds hl hr _ => ⟨[], .none (Quiet.append (evaluates_quiet hl) (evaluates_quiet hr))⟩
  | .condTrue htest h => by
    refine (evaluatesBlock_openCalls h).imp ?_
    rintro ⟨thn, rfl, calls, hc⟩
    exact ⟨calls, hc.of_takesUp (.thn htest)⟩
  | .condFalse htest h => by
    refine (evaluatesBlock_openCalls h).imp ?_
    rintro ⟨els, rfl, calls, hc⟩
    exact ⟨calls, hc.of_takesUp (.els htest)⟩
  | .condKind htest _ => ⟨[], .none (evaluates_quiet htest)⟩
  | .loop h => by
    refine (loops_openCalls h).imp ?_
    rintro (hquiet | ⟨log₁, log₂, rfl, p, s₁, hp, calls, hc⟩)
    · exact ⟨[], .none hquiet⟩
    · exact ⟨calls, hc.of_takesUp (.loop hp)⟩
  | .seq hfirst hsecond => by
    refine (evaluates_openCalls hsecond).imp ?_
    rintro ⟨calls, hc⟩
    exact ⟨calls, hc.of_takesUp (.second hfirst)⟩
  | .decl _ _ => trivial
  | .declDuplicate h _ => ⟨[], .none (evaluates_quiet h)⟩
  | .assign _ => trivial
  | .callKind h _ => ⟨[], .none (evaluates_quiet h)⟩
  | .callArgs hcallee hargs => by
    obtain ⟨log₁, log₂, rfl, p, s₁, hp, calls, hc⟩ := evaluatesArgs_openCalls hargs
    rw [← List.append_assoc]
    exact ⟨calls, hc.of_takesUp (.arg hcallee hp)⟩
  | .callParams hcallee hargs _ _ => ⟨_, .unbound (.mk .refl hcallee hargs)⟩
  | .callError hcallee hargs halloc hbinds hb => by
    -- The call stays open around the calls of its body.
    obtain ⟨body, rfl, calls, hc⟩ := evaluatesBlock_openCalls hb
    exact ⟨_, .body (.mk .refl hcallee hargs) halloc hbinds rfl hc⟩
  | .call _ _ _ _ _ => trivial

theorem evaluatesBlock_openCalls {b : Option Expr} {scope : ScopeId} {s s' : Store}
    {log : List Event} {r : Ending Value} (h : EvaluatesBlock b scope s log r s') :
    r.IfError (∃ body, b = some body ∧ ∃ calls, OpenCalls body scope s log calls) :=
  match h with
  | .none => trivial
  | .some h => (evaluates_openCalls h).imp fun hc => ⟨_, rfl, hc⟩

theorem evaluatesArgs_openCalls {es : List Expr} {scope : ScopeId} {s s' : Store}
    {log : List Event} {r : Ending (List Value)} (h : EvaluatesArgs es scope s log r s') :
    r.IfError (∃ log₁ log₂, log = log₁ ++ log₂ ∧ ∃ p s₁, TakesUpArg es scope s log₁ p s₁ ∧
      ∃ calls, OpenCalls p scope s₁ log₂ calls) :=
  match h with
  | .nil => trivial
  | .firstError h => ⟨[], _, rfl, _, _, .here, evaluates_openCalls h⟩
  | .restError h hs => by
    obtain ⟨log₁, log₂, rfl, p, s₁, hp, hc⟩ := evaluatesArgs_openCalls hs
    exact ⟨_, log₂, (List.append_assoc ..).symm, p, s₁, .there h hp, hc⟩
  | .cons _ _ => trivial

theorem loops_openCalls {test : Expr} {body : Option Expr} {scope : ScopeId} {last : Value}
    {s s' : Store} {log : List Event} {r : Ending Value}
    (h : Loops test body scope last s log r s') :
    r.IfError (Quiet log ∨ ∃ log₁ log₂, log = log₁ ++ log₂ ∧
      ∃ p s₁, TakesUpInLoop test body scope s log₁ p s₁ ∧
        ∃ calls, OpenCalls p scope s₁ log₂ calls) :=
  match h with
  | .testError h => .inr ⟨[], _, rfl, _, _, .test, evaluates_openCalls h⟩
  | .testKind h _ => .inl (evaluates_quiet h)
  | .stop _ => trivial
  | .bodyError htest hb => by
    obtain ⟨b, hbody, hc⟩ := evaluatesBlock_openCalls hb
    exact .inr ⟨_, _, rfl, b, _, .body htest hbody, hc⟩
  | .round htest hb h => by
    refine (loops_openCalls h).imp ?_
    rintro (hquiet | ⟨log₁, log₂, rfl, p, s₁, hp, hc⟩)
    · exact .inl (Quiet.append (.append (evaluates_quiet htest) (evaluatesBlock_quiet hb)) hquiet)
    · exact .inr ⟨_, log₂, (List.append_assoc ..).symm, p, s₁, .round htest hb hp, hc⟩

end

/-! ## The machine -/

/-- **The call stack after an evaluation.** It is what it was if the evaluation gives a value; if it
fails, the calls lie on it that were entered and not left, the innermost on top. -/
theorem Run.eval_callStack {rounds depth : Nat} {e : Expr} {scope : ScopeId} {m m' : Machine} :
    (∀ v, eval rounds depth e scope m = (.done v, m') → m'.frames = m.frames) ∧
    ∀ fault, eval rounds depth e scope m = (.failed fault, m') →
      ∃ log culprit calls,
        Evaluates e scope m.store log (.error culprit fault.kind fault.message) m'.store ∧
        OpenCalls e scope m.store log calls ∧ CallPath (some e) calls ∧
        m'.frames = calls.reverse ++ m.frames := by
  constructor
  · intro v h
    obtain ⟨log, hlog, hfollows⟩ := exists_log_of_done h
    rw [hfollows.frames]
    exact evaluates_quiet hlog m.frames
  · intro fault h
    obtain ⟨log, culprit, hlog, hfollows⟩ := exists_log_of_failed h
    obtain ⟨calls, hc⟩ := evaluates_openCalls hlog
    refine ⟨log, culprit, calls, hlog, hc, hc.callPath, ?_⟩
    rw [hfollows.frames]
    exact hc.openCalls_eq m.frames

/-- A division by zero in a function that is called with an argument too many. -/
theorem Run.eval_callStack_surplus_argument :
    let one : Expr := .literal (.int 1)
    let body : Expr := .binop .div one (.literal (.int 0))
    let site : Expr := .call (.func ["x"] (some body)) [one, one]
    let m := Machine.initial 10 false
    let m' := (eval 5 5 (.print site) 0 m).2
    eval 5 5 one 0 m = (.done (.int 1), { m with current := .node one }) ∧
      ({ m with current := .node one } : Machine).frames = m.frames ∧
      eval 5 5 (.print site) 0 m = (.failed (.divisionByZero .div 1), m') ∧
      m'.frames = [⟨"<anonymous>", ["x"], some body, 0, [.int 1, .int 1], some site⟩] ∧
      ∃ log culprit calls,
        Evaluates (.print site) 0 m.store log (.error culprit .divisionByZero "1 / 0") m'.store ∧
        OpenCalls (.print site) 0 m.store log calls ∧ CallPath (some (.print site)) calls ∧
        m'.frames = calls.reverse ++ m.frames := by
  intro one body site m m'
  have hdone : eval 5 5 one 0 m = (.done (.int 1), { m with current := .node one }) := rfl
  have hfailed : eval 5 5 (.print site) 0 m = (.failed (.divisionByZero .div 1), m') := rfl
  exact ⟨hdone, eval_callStack.1 _ hdone, hfailed, rfl, eval_callStack.2 _ hfailed⟩

end Treewalk
