import Treewalk.Proofs.Semantics.Adequacy
import Treewalk.Session

/-!
# Where an error is located

A report of an error names the expression that the machine took up last. Each evaluation of a part
overwrites it, so an expression that raises an error by its own rule has to be taken up again after
its parts were evaluated. Operations, declarations and calls of what is no function do so
(`Fault.IsLocated`); conditions that are no truth values and parameters that are bound twice are
reported as they come.

The rules say of each error which expression raised it by a rule of its own. `Run.current_of_failed`
says that the machine names just this expression in the end, wherever it lies in operands,
arguments, loops and calls: nothing is taken up while an error passes through what lies around it.
-/

namespace Treewalk

/-- Whether a fault is one that the rules of an expression raise. -/
inductive Fault.RaisedBy : Fault → Expr → Prop where
  | operands {op v w l r} : RaisedBy (.operandsNotInts op v w) (.binop op l r)
  | zero {op n l r} : RaisedBy (.divisionByZero op n) (.binop op l r)
  | callee {given f args} : RaisedBy (.notCallable given) (.call f args)
  | declared {x init} : RaisedBy (.duplicateVariable x) (.decl x init)
  | parameter {p f args} : RaisedBy (.duplicateVariable p) (.call f args)
  | choice {v t thn els} : RaisedBy (.conditionNotBool .choice v) (.cond t thn els)
  | loop {v t body} : RaisedBy (.conditionNotBool .loop v) (.loop t body)

/-- Whether an expression is taken up again before it raises a fault. -/
def Fault.IsLocated : Fault → Expr → Prop
  | .operandsNotInts .., _ | .divisionByZero .., _ | .notCallable _, _ => True
  | .duplicateVariable _, culprit => ∃ x init, culprit = .decl x init
  | .conditionNotBool .., _ | .unknownNode _, _ => False

/-- Whether a fault is one that an expression raises, and the machine names the expression if it was
taken up again. -/
structure Machine.Locates (m : Machine) (fault : Fault) (culprit : Expr) : Prop where
  raised : fault.RaisedBy culprit
  current : fault.IsLocated culprit → m.current = .node culprit

/-- What holds of the culprit provided that an ending is an error. -/
def Ending.IfRaised {α : Type} (r : Ending α) (P : Expr → Prop) : Prop :=
  match r with
  | .value _ => True
  | .error culprit _ _ => P culprit

theorem Ending.IfRaised.imp {α : Type} {r : Ending α} {P Q : Expr → Prop} (h : r.IfRaised P)
    (himp : ∀ culprit, P culprit → Q culprit) : r.IfRaised Q := by
  cases r with
  | value => trivial
  | error culprit => exact himp culprit h

namespace Run

variable {α β : Type}

/-- Whether a step fails in every machine with a store, and the error is located in the end. -/
def Blames (x : Run α) (s : Store) (culprit : Expr) : Prop :=
  ∀ m, m.store = s → ∃ fault m', x m = (.failed fault, m') ∧ m'.Locates fault culprit

section

variable {x : Run α} {f : α → Run β} {s s₁ : Store} {log : List Event} {culprit : Expr}

/-- An error passes through what would have come after it. -/
theorem Blames.bind (h : x.Blames s culprit) : (x >>= f).Blames s culprit := by
  intro m hm
  obtain ⟨fault, m', hx, hlocates⟩ := h m hm
  exact ⟨fault, m', by rw [bind_apply, hx], hlocates⟩

/-- An error after a step that gives a value. -/
theorem Produces.bind_blames {a : α} (hx : Produces x s log (.value a) s₁)
    (hf : (f a).Blames s₁ culprit) : (x >>= f).Blames s culprit := by
  intro m hm
  obtain ⟨_, m₁, hx, rfl, hs₁, -⟩ := hx m hm
  obtain ⟨fault, m', hf, hlocates⟩ := hf m₁ hs₁
  exact ⟨fault, m', by rw [bind_apply, hx, ← hf], hlocates⟩

/-- An expression that is taken up and fails then. -/
theorem look_blames {y : Unit → Run α} {fault : Fault} (hy : y () = fail fault)
    (h : fault.RaisedBy culprit) (s : Store) :
    (look culprit >>= y).Blames s culprit := by
  intro m _
  refine ⟨fault, { m with current := .node culprit }, ?_, h, fun _ => rfl⟩
  show y () _ = _
  rw [hy]
  rfl

/-- A fault that is not located. -/
theorem fail_blames {fault : Fault} (h : fault.RaisedBy culprit) (hfree : ¬fault.IsLocated culprit)
    (s : Store) : (fail fault : Run α).Blames s culprit :=
  fun m _ => ⟨fault, m, rfl, h, fun hlocated => absurd hlocated hfree⟩

end

/-! ## Own rules -/

/-- A declaration in a scope that binds the name already. -/
theorem declare_blames {scope : ScopeId} {x : Text} {s : Store} (h : s.binds scope x = true)
    (init : Expr) (v : Value) {f : Unit → Run α} :
    (look (.decl x init) >>= fun _ => declare scope x v >>= f).Blames s (.decl x init) := by
  rintro m rfl
  let m' := { m with current := .node (.decl x init) }
  refine ⟨.duplicateVariable x, m', ?_, .declared, fun _ => rfl⟩
  show (declare scope x v >>= f) m' = _
  rw [bind_apply, declare_of_bound (show m'.store.binds scope x = true from h)]

/-- A parameter that is bound already. -/
theorem bindParams_blames {scope : ScopeId} {ps : List Text} {vs : List Value} {s s' : Store}
    {p : Text} (h : Binds scope ps vs s (some p) s') (callee : Expr) (args : List Expr) :
    (bindParams scope ps vs).Blames s (.call callee args) := by
  generalize hstop : some p = stop at h
  induction h with
  | nil => cases hstop
  | cons hq _ ih =>
    rw [bindParams_cons]
    exact (produces_declare hq _).bind_blames (ih hstop)
  | @duplicate q _ _ s hq =>
    rw [bindParams_cons]
    refine Blames.bind fun m hm => ⟨_, m, declare_of_bound (hm ▸ hq) _, .parameter, ?_⟩
    rintro ⟨_, _, hdecl⟩
    cases hdecl

/-- A call stays open if its body fails. -/
theorem callClosure_blames {ev : Expr → ScopeId → Run Value} {ps : List Text} {b : Option Expr}
    {outer : ScopeId} {vs : List Value} {s : Store} {culprit : Expr}
    (happly : (applyClosure ev ps b outer vs).Blames s culprit) (site : Option Expr)
    (name : Text) : (callClosure ev site name ps b outer vs).Blames s culprit := by
  rw [callClosure_eq]
  refine (produces_noteCall name ps vs s).bind_blames ((produces_push _ s).bind_blames ?_)
  exact happly.bind

/-! ## Statements of an expression -/

/-- Whether evaluation of the statements of an expression fails, located, if its bounds suffice. -/
def Traced (e : Expr) (scope : ScopeId) (s : Store) (culprit : Expr) : Prop :=
  Enough fun rounds depth =>
    ∀ last, (evalStatements (eval rounds depth) scope last e.statements).Blames s culprit

section

variable {e culprit : Expr} {scope : ScopeId} {s : Store}

theorem traced_of_succ {P : Nat → Nat → Prop} (he : e.statements = [e]) (h : Enough P)
    (heval : ∀ rounds depth, P rounds depth →
      (eval rounds (depth + 1) e scope).Blames s culprit) : Traced e scope s culprit :=
  enough_statements_of_succ (P := (Blames · s culprit)) he h heval

/-- An expression fails as its statements do. -/
theorem Traced.eval (h : Traced e scope s culprit) :
    Enough fun rounds depth => (Run.eval rounds depth e scope).Blames s culprit :=
  enough_eval (P := (Blames · s culprit)) (fun e _ hx => (produces_look e s).bind_blames hx) h

/-- An expression fails as the part does that is evaluated first. -/
theorem traced_firstError {first : Expr} (hfirst : e.first? = some first)
    (h : Traced first scope s culprit) : Traced e scope s culprit :=
  enough_statements_of_first (P := (Blames · s culprit))
    (fun e _ hx => (produces_look e s).bind_blames hx) (fun _ _ hx => hx.bind) hfirst h

end

/-! ## Derivations -/

mutual

theorem evaluates_traced {e : Expr} {scope : ScopeId} {s s' : Store} {log : List Event}
    {r : Ending Value} (h : Evaluates e scope s log r s') : r.IfRaised (Traced e scope s) :=
  match h with
  | .literal => trivial
  | .var => trivial
  | .func => trivial
  | .firstError hfirst h => traced_firstError hfirst (evaluates_traced h)
  | .print _ => trivial
  | .binopError hl hr => by
    refine traced_of_succ rfl ((evaluates_found hl).eval.and (evaluates_traced hr).eval)
      fun rounds depth ⟨hl, hr⟩ => ?_
    exact (produces_look _ s).bind_blames (hl.bind_blames hr.bind)
  | .binop _ _ _ => trivial
  | .binopZero hl hr hop => by
    refine traced_of_succ rfl ((evaluates_found hl).eval.and (evaluates_found hr).eval)
      fun rounds depth ⟨hl, hr⟩ => ?_
    refine (produces_look _ s).bind_blames (hl.bind_blames (hr.bind_blames ?_))
    exact look_blames (combine_of_zero hop _) .zero s'
  | .binopKinds hl hr hkinds => by
    refine traced_of_succ rfl ((evaluates_found hl).eval.and (evaluates_found hr).eval)
      fun rounds depth ⟨hl, hr⟩ => ?_
    refine (produces_look _ s).bind_blames (hl.bind_blames (hr.bind_blames ?_))
    exact look_blames (combine_of_kinds hkinds _) .operands s'
  | .condTrue htest h => by
    refine (evaluatesBlock_traced h).imp fun culprit h => ?_
    refine traced_of_succ rfl ((evaluates_found htest).eval.and h) fun rounds depth ⟨htest, h⟩ => ?_
    refine (produces_look _ s).bind_blames (htest.bind_blames ?_)
    exact (produces_result true _).bind_blames h
  | .condFalse htest h => by
    refine (evaluatesBlock_traced h).imp fun culprit h => ?_
    refine traced_of_succ rfl ((evaluates_found htest).eval.and h) fun rounds depth ⟨htest, h⟩ => ?_
    refine (produces_look _ s).bind_blames (htest.bind_blames ?_)
    exact (produces_result false _).bind_blames h
  | .condKind htest hkind => by
    refine traced_of_succ rfl (evaluates_found htest).eval fun rounds depth htest => ?_
    refine (produces_look _ s).bind_blames (htest.bind_blames (Blames.bind ?_))
    rw [demandBool_of_kind hkind]
    exact fail_blames .choice id s'
  | .loop h => by
    refine (loops_traced h).imp fun culprit ⟨least, h⟩ => ?_
    refine traced_of_succ rfl (h.and (.rounds_ge least)) fun rounds depth ⟨h, hrounds⟩ => ?_
    exact (produces_look _ s).bind_blames (h rounds hrounds 0)
  | .seq hfirst hsecond => by
    refine (evaluates_traced hsecond).imp fun culprit hsecond => ?_
    refine ((evaluates_found hfirst).and hsecond.eval).imp
      fun rounds depth ⟨hfirst, hsecond⟩ last => ?_
    rw [Expr.statements_seq, evalStatements_append]
    refine (hfirst last).bind_blames ?_
    rw [evalStatements_single]
    exact hsecond
  | .decl _ _ => trivial
  | .declDuplicate h hbinds => by
    refine traced_of_succ rfl (evaluates_found h).eval fun rounds depth h => ?_
    exact (produces_look _ s).bind_blames (h.bind_blames (declare_blames hbinds _ _))
  | .assign _ => trivial
  | .callKind (v := v) h hkind => by
    refine traced_of_succ rfl (evaluates_found h).eval fun rounds depth h => ?_
    refine (produces_look _ s).bind_blames (h.bind_blames ?_)
    cases v with
    | closure ps b outer => exact absurd rfl (hkind ps b outer)
    | int | bool | null => exact look_blames rfl .callee s'
  | .callArgs hcallee hargs => by
    refine traced_of_succ rfl ((evaluates_found hcallee).eval.and (evaluatesArgs_traced hargs))
      fun rounds depth ⟨hcallee, hargs⟩ => ?_
    exact (produces_look _ s).bind_blames (hcallee.bind_blames hargs.bind)
  | .callParams hcallee hargs halloc hbinds => by
    refine traced_of_succ rfl ((evaluates_found hcallee).eval.and (evaluatesArgs_found hargs))
      fun rounds depth ⟨hcallee, hargs⟩ => ?_
    refine (produces_look _ s).bind_blames (hcallee.bind_blames (hargs.bind_blames ?_))
    refine callClosure_blames ((produces_newScope halloc).bind_blames ?_) _ _
    exact (bindParams_blames hbinds _ _).bind
  | .callError hcallee hargs halloc hbinds hb => by
    refine traced_of_succ rfl (((evaluates_found hcallee).eval.and (evaluatesArgs_found hargs)).and
      (evaluatesBlock_traced hb)) fun rounds depth ⟨⟨hcallee, hargs⟩, hb⟩ => ?_
    refine (produces_look _ s).bind_blames (hcallee.bind_blames (hargs.bind_blames ?_))
    refine callClosure_blames ((produces_newScope halloc).bind_blames ?_) _ _
    exact (bindParams_produces hbinds (.literal .null)).bind_blames hb
  | .call _ _ _ _ _ => trivial

theorem evaluatesBlock_traced {b : Option Expr} {scope : ScopeId} {s s' : Store} {log : List Event}
    {r : Ending Value} (h : EvaluatesBlock b scope s log r s') :
    r.IfRaised fun culprit => Enough fun rounds depth =>
      (evalBlock (eval rounds depth) b scope).Blames s culprit :=
  match h with
  | .none => trivial
  | .some h => (evaluates_traced h).imp fun _ h => h.eval

theorem evaluatesArgs_traced {es : List Expr} {scope : ScopeId} {s s' : Store} {log : List Event}
    {r : Ending (List Value)} (h : EvaluatesArgs es scope s log r s') :
    r.IfRaised fun culprit => Enough fun rounds depth =>
      (evalArgs (eval rounds depth) scope es).Blames s culprit :=
  match h with
  | .nil => trivial
  | .firstError h => (evaluates_traced h).eval.imp fun _ _ h => h.bind
  | .restError h hs => by
    refine ((evaluates_found h).eval.and (evaluatesArgs_traced hs)).imp fun _ _ ⟨h, hs⟩ => ?_
    exact h.bind_blames hs.bind
  | .cons _ _ => trivial

theorem loops_traced {test : Expr} {body : Option Expr} {scope : ScopeId} {last : Value}
    {s s' : Store} {log : List Event} {r : Ending Value}
    (h : Loops test body scope last s log r s') :
    r.IfRaised fun culprit => ∃ least, Enough fun rounds depth => ∀ left ≥ least, ∀ count,
      (evalLoop (eval rounds depth) test body scope left count last).Blames s culprit :=
  match h with
  | .testError h => by
    refine ⟨1, (evaluates_traced h).eval.imp fun _ _ h left hleft count => ?_⟩
    obtain ⟨left, rfl⟩ := Nat.exists_eq_add_one.mpr hleft
    exact h.bind
  | .testKind h hkind => by
    refine ⟨1, (evaluates_found h).eval.imp fun _ _ h left hleft count => ?_⟩
    obtain ⟨left, rfl⟩ := Nat.exists_eq_add_one.mpr hleft
    refine h.bind_blames (Blames.bind ?_)
    rw [demandBool_of_kind hkind]
    exact fail_blames .loop id s'
  | .stop _ => trivial
  | .bodyError htest hb => by
    refine ⟨1, ((evaluates_found htest).eval.and (evaluatesBlock_traced hb)).imp
      fun _ _ ⟨htest, hb⟩ left hleft count => ?_⟩
    obtain ⟨left, rfl⟩ := Nat.exists_eq_add_one.mpr hleft
    exact htest.bind_blames ((produces_result true _).bind_blames hb.bind)
  | .round htest hb h => by
    refine (loops_traced h).imp fun culprit ⟨least, h⟩ => ?_
    refine ⟨least + 1, (((evaluates_found htest).eval.and (evaluatesBlock_found hb)).and h).imp
      fun _ _ ⟨⟨htest, hb⟩, h⟩ left hleft count => ?_⟩
    obtain ⟨left, rfl⟩ : ∃ n, left = n + 1 := Nat.exists_eq_add_one.mpr (by omega)
    refine htest.bind_blames ((produces_result true _).bind_blames (hb.bind_blames ?_))
    exact h left (Nat.le_of_succ_le_succ hleft) (count + 1)

end

/-! ## Failing runs -/

variable {e : Expr} {scope : ScopeId} {rounds depth : Nat} {m m' : Machine} {fault : Fault}

/-- A derived error is the fault with which a run fails, and it is located in the end of the run. -/
theorem locates_of_failed (h : eval rounds depth e scope m = (.failed fault, m'))
    {log : List Event} {culprit : Expr} {k : FaultKind} {t : Text} {s' : Store}
    (hlog : Evaluates e scope m.store log (.error culprit k t) s') :
    k = fault.kind ∧ t = fault.message ∧ s' = m'.store ∧ m'.Locates fault culprit := by
  obtain ⟨n, hn⟩ := (evaluates_found hlog).eval.and (evaluates_traced hlog).eval
  obtain ⟨hfound, htraced⟩ :=
    hn (max n rounds) (Nat.le_max_left n rounds) (max n depth) (Nat.le_max_left n depth)
  -- With greater bounds, which suffice for the derivation, the run fails in the same way.
  have hgreater := (eval_refines (Nat.le_max_right n rounds) (Nat.le_max_right n depth) e
    scope).eq_of_failed h
  obtain ⟨_, _, hrun, ⟨_, rfl, hk, ht⟩, hs', -⟩ := hfound m rfl
  obtain ⟨_, _, hrun', hlocates⟩ := htraced m rfl
  rw [hgreater] at hrun hrun'
  cases hrun
  cases hrun'
  exact ⟨hk.symm, ht.symm, hs'.symm, hlocates⟩

/-- **A report names the expression whose own rule raised the error.** A run that fails is derived,
and whatever expression a derivation blames, it is one that raises the fault. If it is an operation,
a declaration or a call of what is no function, then it is what the machine took up last, and its
source is what the report shows, if that can be laid out within the limit. -/
theorem current_of_failed (h : eval rounds depth e scope m = (.failed fault, m')) :
    (∃ log culprit,
      Evaluates e scope m.store log (.error culprit fault.kind fault.message) m'.store) ∧
    ∀ log culprit k t s', Evaluates e scope m.store log (.error culprit k t) s' →
      k = fault.kind ∧ t = fault.message ∧ s' = m'.store ∧ fault.RaisedBy culprit ∧
      (fault.IsLocated culprit → m'.current = .node culprit ∧
        ∀ limit, Session.explain limit fault m' =
          if Session.callsAroundMessage + culprit.layoutDepth ≤ limit then
            .ok (fault.kind.name ++ ": " ++ fault.message ++ ("\nAt: " ++ culprit.text) ++
              Session.showCalls m'.frames)
          else .error (.messageTooDeep fault.kind)) := by
  constructor
  · obtain ⟨log, culprit, hlog, -⟩ := exists_log_of_failed h
    exact ⟨log, culprit, hlog⟩
  · intro log culprit k t s' hlog
    obtain ⟨hk, ht, hs', hraised, hcurrent⟩ := locates_of_failed h hlog
    refine ⟨hk, ht, hs', hraised, fun hlocated => ?_⟩
    have hcurrent := hcurrent hlocated
    refine ⟨hcurrent, fun limit => ?_⟩
    unfold Session.explain
    rw [hcurrent]
    rfl

/-- An operation on what is no integer, in a loop in a function that is called in an argument. Its
first operand is a call that has returned. -/
theorem current_of_failed_operand :
    let one : Expr := .literal (.int 1)
    let yes : Expr := .literal (.bool true)
    let sum : Expr := .binop .add (.call (.func [] (some one)) []) yes
    let site : Expr := .call (.func ["x"] (some (.loop yes (some sum)))) [one]
    let m := Machine.initial 10 false
    let m' := (eval 9 9 (.print site) 0 m).2
    eval 9 9 (.print site) 0 m = (.failed (.operandsNotInts .add (.int 1) (.bool true)), m') ∧
      m'.current = .node sum ∧
      ∃ log culprit, Evaluates (.print site) 0 m.store log
        (.error culprit .type "operator '+' expects int operands, got int + bool") m'.store ∧
        culprit = sum := by
  intro one yes sum site m m'
  have hfailed : eval 9 9 (.print site) 0 m =
    (.failed (.operandsNotInts .add (.int 1) (.bool true)), m') := rfl
  obtain ⟨⟨log, culprit, hlog⟩, hblamed⟩ := current_of_failed hfailed
  obtain ⟨-, -, -, -, hlocated⟩ := hblamed log culprit _ _ _ hlog
  have hcurrent : Document.node sum = .node culprit := (hlocated trivial).1
  exact ⟨hfailed, rfl, log, culprit, hlog, (Document.node.inj hcurrent).symm⟩

end Run

end Treewalk
