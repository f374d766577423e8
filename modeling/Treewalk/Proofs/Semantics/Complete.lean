import Treewalk.Proofs.Machine.Ends
import Treewalk.Proofs.Semantics.Log

/-!
# Evaluation finds what the rules derive

Whatever the rules derive, evaluation ends in that way as soon as its bounds suffice
(`eval_produces`). The induction is on the derivation. A `seq` stands for two derivations, and the
machine evaluates all statements of its chain at one depth; so what is proved is about the
statements of an expression (`Evaluates.produces`), from which its evaluation follows.
-/

namespace Treewalk

variable {α β : Type}

/-- Whether an outcome is the one that an ending stands for. -/
def Ending.Matches : Ending α → Outcome α → Prop
  | .value a, outcome => outcome = .done a
  | .error _ kind text, outcome =>
    ∃ fault : Fault, outcome = .failed fault ∧ fault.kind = kind ∧ fault.message = text

namespace Run

/-- Whether a step has an end, in every machine with a store. -/
def Produces (x : Run α) (s : Store) (log : List Event) (r : Ending α) (s' : Store) : Prop :=
  ∀ m, m.store = s →
    ∃ outcome m', x m = (outcome, m') ∧ r.Matches outcome ∧ m'.store = s' ∧ Follows m log m'

section

variable {x : Run α} {f : α → Run β} {s s₁ s' : Store} {log log₁ log₂ : List Event}

theorem produces_result (a : α) (s : Store) : Produces (result a) s [] (.value a) s := by
  rintro m rfl
  exact ⟨.done a, m, rfl, rfl, rfl, rfl, rfl⟩

theorem produces_fail (fault : Fault) (culprit : Expr) (s : Store) :
    Produces (fail fault : Run α) s [] (.error culprit fault.kind fault.message) s := by
  rintro m rfl
  exact ⟨.failed fault, m, rfl, ⟨fault, rfl, rfl, rfl⟩, rfl, rfl, rfl⟩

/-- A step that only changes the state. -/
theorem produces_change {g : Machine → Machine}
    (hg : ∀ m, m.store = s → (g m).store = s' ∧ Follows m log (g m)) :
    Produces (change g) s log (.value ()) s' := by
  intro m hm
  exact ⟨.done (), g m, rfl, rfl, hg m hm⟩

theorem produces_look (e : Expr) (s : Store) : Produces (look e) s [] (.value ()) s :=
  produces_change fun _ hm => ⟨hm, rfl, rfl⟩

theorem produces_note (line : Unit → Text) (s : Store) :
    Produces (note line) s [] (.value ()) s := by
  rintro m rfl
  obtain ⟨trace, h⟩ := note_apply line m
  exact ⟨.done (), { m with trace := trace }, h, rfl, rfl, rfl, rfl⟩

theorem produces_noteCall (name : Text) (params : List Text) (args : List Value) (s : Store) :
    Produces (noteCall name params args) s [] (.value ()) s := by
  rintro m rfl
  obtain ⟨trace, h⟩ := noteCall_apply name params args m
  exact ⟨.done (), { m with trace := trace }, h, rfl, rfl, rfl, rfl⟩

theorem produces_writeLine (line : Text) (s : Store) :
    Produces (writeLine line) s [.printed line] (.value ()) s :=
  produces_change fun _ hm => ⟨hm, rfl, rfl⟩

theorem produces_push (call : Frame) (s : Store) :
    Produces (push call) s [.entered call] (.value ()) s :=
  produces_change fun _ hm => ⟨hm, rfl, rfl⟩

theorem produces_pop (s : Store) : Produces pop s [.left] (.value ()) s :=
  produces_change fun _ hm => ⟨hm, rfl, rfl⟩

theorem produces_resolve (scope : ScopeId) (name : Text) (s : Store) :
    Produces (resolve scope name) s [] (.value (s.resolve scope name)) s := by
  rintro m rfl
  exact ⟨.done _, m, rfl, rfl, rfl, rfl, rfl⟩

theorem produces_update (scope : ScopeId) (name : Text) (v : Value) (s : Store) :
    Produces (update scope name v) s [] (.value ()) (s.update scope name v) :=
  produces_change fun _ hm => ⟨hm ▸ rfl, rfl, rfl⟩

theorem produces_newScope {outer inner : ScopeId} {s s' : Store}
    (h : s.alloc (some outer) = (inner, s')) :
    Produces (newScope outer) s [] (.value inner) s' := by
  rintro m rfl
  cases h
  exact ⟨.done _, _, rfl, rfl, rfl, rfl, rfl⟩

/-- One step after another. -/
theorem Produces.bind {a : α} {r : Ending β} (hx : Produces x s log₁ (.value a) s₁)
    (hf : Produces (f a) s₁ log₂ r s') : Produces (x >>= f) s (log₁ ++ log₂) r s' := by
  intro m hm
  obtain ⟨_, m₁, hx, rfl, hs₁, hlog₁⟩ := hx m hm
  obtain ⟨outcome, m₂, hf, hr, hs', hlog₂⟩ := hf m₁ hs₁
  exact ⟨outcome, m₂, by rw [bind_apply, hx, ← hf], hr, hs', hlog₁.trans hlog₂⟩

/-- A step after one that fails. -/
theorem Produces.bind_error {culprit : Expr} {k : FaultKind} {t : Text}
    (hx : Produces x s log (.error culprit k t) s') :
    Produces (x >>= f) s log (.error culprit k t) s' := by
  intro m hm
  obtain ⟨_, m₁, hx, ⟨fault, rfl, hk, ht⟩, hs', hlog⟩ := hx m hm
  exact ⟨.failed fault, m₁, by rw [bind_apply, hx], ⟨fault, rfl, hk, ht⟩, hs', hlog⟩

/-- A step of which nothing is seen after another one. -/
theorem Produces.bind_silent {a : α} {r : Ending β} (hx : Produces x s log (.value a) s₁)
    (hf : Produces (f a) s₁ [] r s') : Produces (x >>= f) s log r s' := by
  have h := hx.bind hf
  rwa [List.append_nil] at h

end

/-! ## Steps without evaluation -/

theorem produces_declare {scope : ScopeId} {name : Text} {s : Store}
    (h : s.binds scope name = false) (v : Value) :
    Produces (declare scope name v) s [] (.value ()) (s.set scope name v) := by
  rintro m rfl
  exact ⟨_, _, declare_of_unbound h v, rfl, rfl, rfl, rfl⟩

theorem produces_declare_error {scope : ScopeId} {name : Text} {s : Store}
    (h : s.binds scope name = true) (v : Value) (culprit : Expr) :
    Produces (declare scope name v) s []
      (.error culprit .duplicateVariable
        ("Variable '" ++ name ++ "' is already declared in this scope")) s := by
  rintro m rfl
  exact ⟨_, _, declare_of_bound h v, ⟨_, rfl, rfl, rfl⟩, rfl, rfl, rfl⟩

/-- How the binding of parameters ends, by the parameter at which it stops. -/
def bindingEnd (culprit : Expr) : Option Text → Ending Unit
  | none => .value ()
  | some p => .error culprit .duplicateVariable
    ("Variable '" ++ p ++ "' is already declared in this scope")

theorem bindParams_produces {scope : ScopeId} {ps : List Text} {vs : List Value} {s s' : Store}
    {stop : Option Text} (h : Binds scope ps vs s stop s') (culprit : Expr) :
    Produces (bindParams scope ps vs) s [] (bindingEnd culprit stop) s' := by
  induction h with
  | nil => exact produces_result () _
  | cons hp _ ih =>
    rw [bindParams_cons]
    exact (produces_declare hp _).bind ih
  | duplicate hp =>
    rw [bindParams_cons]
    exact (produces_declare_error hp _ culprit).bind_error

theorem combine_produces {op : Op} {a b : Int} {v : Value} (h : op.Computes a b v) (s : Store) :
    Produces (combine op (.int a) (.int b)) s [] (.value v) s := by
  rw [combine, Op.computes_iff.mp h]
  exact produces_result v s

theorem combine_produces_zero {op : Op} (h : op = .div ∨ op = .mod) (a : Int) (culprit : Expr)
    (s : Store) :
    Produces (combine op (.int a) (.int 0)) s []
      (.error culprit .divisionByZero (showInt a ++ " " ++ op.symbol ++ " 0")) s := by
  rw [combine_of_zero h]
  exact produces_fail (.divisionByZero op a) culprit s

theorem combine_produces_kinds {v w : Value} (h : ∀ a b, ¬(v = .int a ∧ w = .int b)) (op : Op)
    (culprit : Expr) (s : Store) :
    Produces (combine op v w) s []
      (.error culprit .type ("operator '" ++ op.symbol ++ "' expects int operands, got " ++
        v.kind ++ " " ++ op.symbol ++ " " ++ w.kind)) s := by
  rw [combine_of_kinds h]
  exact produces_fail (.operandsNotInts op v w) culprit s

theorem demandBool_produces_kind {v : Value} (h : ∀ b, v ≠ .bool b) (construct : Construct)
    (culprit : Expr) (s : Store) :
    Produces (demandBool construct v) s []
      (.error culprit .type (construct.name ++ " condition must be a bool, got " ++ v.kind)) s := by
  rw [demandBool_of_kind h]
  exact produces_fail (.conditionNotBool construct v) culprit s

section

variable {ev : Expr → ScopeId → Run Value} {ps : List Text} {b : Option Expr}
  {outer inner : ScopeId} {vs : List Value} {s s₁ s₂ s' : Store} {log : List Event}
  {r : Ending Value}

/-- The body of a function runs in a new scope that binds the parameters. -/
theorem applyClosure_produces (halloc : s.alloc (some outer) = (inner, s₁))
    (hbinds : Binds inner ps vs s₁ none s₂) (hb : Produces (evalBlock ev b inner) s₂ log r s') :
    Produces (applyClosure ev ps b outer vs) s log r s' :=
  (produces_newScope halloc).bind ((bindParams_produces hbinds (.literal .null)).bind hb)

theorem callClosure_produces (site : Option Expr) (name : Text) {v : Value}
    (happly : Produces (applyClosure ev ps b outer vs) s log (.value v) s') :
    Produces (callClosure ev site name ps b outer vs) s
      (.entered ⟨name, ps, b, outer, vs, site⟩ :: (log ++ [.left])) (.value v) s' := by
  rw [callClosure_eq]
  refine (produces_noteCall name ps vs s).bind ((produces_push _ s).bind (happly.bind ?_))
  exact (produces_pop s').bind (produces_result v s')

/-- A call stays open if its body fails. -/
theorem callClosure_produces_error (site : Option Expr) (name : Text) {culprit : Expr}
    {k : FaultKind} {t : Text}
    (happly : Produces (applyClosure ev ps b outer vs) s log (.error culprit k t) s') :
    Produces (callClosure ev site name ps b outer vs) s
      (.entered ⟨name, ps, b, outer, vs, site⟩ :: log) (.error culprit k t) s' := by
  rw [callClosure_eq]
  exact (produces_noteCall name ps vs s).bind ((produces_push _ s).bind happly.bind_error)

end

/-! ## Bounds that suffice -/

/-- Whether something holds of all bounds, on rounds and on depth, that are great enough. -/
def Enough (P : Nat → Nat → Prop) : Prop := ∃ n, ∀ rounds ≥ n, ∀ depth ≥ n, P rounds depth

section

variable {P Q R : Nat → Nat → Prop}

theorem Enough.of_forall (h : ∀ rounds depth, P rounds depth) : Enough P :=
  ⟨0, fun rounds _ depth _ => h rounds depth⟩

theorem Enough.imp (h : Enough P) (himp : ∀ rounds depth, P rounds depth → Q rounds depth) :
    Enough Q := by
  obtain ⟨n, h⟩ := h
  exact ⟨n, fun rounds hr depth hd => himp rounds depth (h rounds hr depth hd)⟩

theorem Enough.and (h : Enough P) (h' : Enough Q) :
    Enough fun rounds depth => P rounds depth ∧ Q rounds depth := by
  obtain ⟨n, h⟩ := h
  obtain ⟨n', h'⟩ := h'
  refine ⟨max n n', fun rounds hr depth hd => ⟨h rounds ?_ depth ?_, h' rounds ?_ depth ?_⟩⟩ <;>
    omega

/-- One evaluation around another one. -/
theorem Enough.succ (h : Enough P) (himp : ∀ rounds depth, P rounds depth → Q rounds (depth + 1)) :
    Enough Q := by
  obtain ⟨n, h⟩ := h
  refine ⟨n + 1, fun rounds hr depth hd => ?_⟩
  obtain ⟨depth, rfl⟩ : ∃ k, depth = k + 1 := Nat.exists_eq_add_one.mpr (by omega)
  exact himp rounds depth (h rounds (by omega) depth (by omega))

theorem Enough.rounds_ge (least : Nat) : Enough fun rounds _ => least ≤ rounds :=
  ⟨least, fun _ hr _ _ => hr⟩

end

section

variable {P : Run Value → Prop} {e : Expr} {scope : ScopeId}

/-- What holds of the evaluation of a single statement, holds of that of its statements. -/
theorem enough_statements_of_succ {Q : Nat → Nat → Prop} (he : e.statements = [e]) (h : Enough Q)
    (heval : ∀ rounds depth, Q rounds depth → P (eval rounds (depth + 1) e scope)) :
    Enough fun rounds depth =>
      ∀ last, P (evalStatements (eval rounds depth) scope last e.statements) := by
  refine h.succ fun rounds depth hQ last => ?_
  rw [he, evalStatements_single]
  exact heval rounds depth hQ

variable (hlook : ∀ e x, P x → P (look e >>= fun _ => x))

include hlook

/-- What holds of the evaluation of all statements, holds of the evaluation of the expression. -/
theorem enough_eval (h : Enough fun rounds depth =>
      ∀ last, P (evalStatements (eval rounds depth) scope last e.statements)) :
    Enough fun rounds depth => P (Run.eval rounds depth e scope) := by
  induction e using Expr.chainRec with
  | single e he =>
    refine h.imp fun rounds depth h => ?_
    have h := h .null
    rwa [he, evalStatements_single] at h
  | seq first second _ =>
    -- The statements of a `seq` are evaluated one level below the `seq` itself.
    refine h.succ fun rounds depth h => ?_
    unfold Run.eval
    exact hlook _ _ (h .null)

/-- What holds of the evaluation of the part that comes first, holds of the whole if nothing that
comes later matters. -/
theorem enough_statements_of_first (hbind : ∀ (x : Run Value) f, P x → P (x >>= f)) {first : Expr}
    (hfirst : e.first? = some first)
    (h : Enough fun rounds depth =>
      ∀ last, P (evalStatements (eval rounds depth) scope last first.statements)) :
    Enough fun rounds depth =>
      ∀ last, P (evalStatements (eval rounds depth) scope last e.statements) := by
  cases e with
  | literal | var | loop | func => cases hfirst
  | seq first second =>
    cases hfirst
    refine h.imp fun rounds depth h last => ?_
    rw [Expr.statements_seq, evalStatements_append]
    exact hbind _ _ (h last)
  | print | binop | cond | decl | assign | call =>
    cases hfirst
    refine enough_statements_of_succ rfl (enough_eval hlook h) fun rounds depth h => ?_
    exact hlook _ _ (hbind _ _ h)

end

/-- Whether evaluation of the statements of an expression has an end if its bounds suffice. -/
def Found (e : Expr) (scope : ScopeId) (s : Store) (log : List Event) (r : Ending Value)
    (s' : Store) : Prop :=
  Enough fun rounds depth =>
    ∀ last, Produces (evalStatements (eval rounds depth) scope last e.statements) s log r s'

section

variable {e : Expr} {scope : ScopeId} {s s' : Store} {log : List Event} {r : Ending Value}

/-- A single statement has the end that its evaluation has. -/
theorem found_of_succ {P : Nat → Nat → Prop} (he : e.statements = [e]) (h : Enough P)
    (heval : ∀ rounds depth, P rounds depth →
      Produces (eval rounds (depth + 1) e scope) s log r s') : Found e scope s log r s' :=
  enough_statements_of_succ (P := (Produces · s log r s')) he h heval

/-- An expression has the end that its statements have. -/
theorem Found.eval (h : Found e scope s log r s') :
    Enough fun rounds depth => Produces (Run.eval rounds depth e scope) s log r s' :=
  enough_eval (P := (Produces · s log r s')) (fun e _ hx => (produces_look e s).bind hx) h

/-- An expression fails if the part that is evaluated first does. -/
theorem found_firstError {first culprit : Expr} {k : FaultKind} {t : Text}
    (hfirst : e.first? = some first) (h : Found first scope s log (.error culprit k t) s') :
    Found e scope s log (.error culprit k t) s' :=
  enough_statements_of_first (P := (Produces · s log (.error culprit k t) s'))
    (fun e _ hx => (produces_look e s).bind hx) (fun _ _ hx => hx.bind_error) hfirst h

end

/-! ## Derivations -/

mutual

theorem evaluates_found {e : Expr} {scope : ScopeId} {s s' : Store} {log : List Event}
    {r : Ending Value} (h : Evaluates e scope s log r s') : Found e scope s log r s' :=
  match h with
  | .literal => by
    refine found_of_succ rfl (.of_forall fun _ _ => trivial) fun rounds depth _ => ?_
    exact (produces_look _ s).bind (produces_result _ s)
  | .var => by
    refine found_of_succ rfl (.of_forall fun _ _ => trivial) fun rounds depth _ => ?_
    exact (produces_look _ s).bind (produces_resolve scope _ s)
  | .func => by
    refine found_of_succ rfl (.of_forall fun _ _ => trivial) fun rounds depth _ => ?_
    exact (produces_look _ s).bind (produces_result _ s)
  | .firstError hfirst h => found_firstError hfirst (evaluates_found h)
  | .print h => by
    refine found_of_succ rfl (evaluates_found h).eval fun rounds depth h => ?_
    refine (produces_look _ s).bind (h.bind ?_)
    exact (produces_writeLine _ s').bind (produces_result _ s')
  | .binopError hl hr => by
    refine found_of_succ rfl ((evaluates_found hl).eval.and (evaluates_found hr).eval)
      fun rounds depth ⟨hl, hr⟩ => ?_
    exact (produces_look _ s).bind (hl.bind hr.bind_error)
  | .binop hl hr hv => by
    refine found_of_succ rfl ((evaluates_found hl).eval.and (evaluates_found hr).eval)
      fun rounds depth ⟨hl, hr⟩ => ?_
    refine (produces_look _ s).bind (hl.bind (hr.bind_silent ?_))
    exact (produces_look _ s').bind (combine_produces hv s')
  | .binopZero hl hr hop => by
    refine found_of_succ rfl ((evaluates_found hl).eval.and (evaluates_found hr).eval)
      fun rounds depth ⟨hl, hr⟩ => ?_
    refine (produces_look _ s).bind (hl.bind (hr.bind_silent ?_))
    exact (produces_look _ s').bind (combine_produces_zero hop _ _ s')
  | .binopKinds hl hr hkinds => by
    refine found_of_succ rfl ((evaluates_found hl).eval.and (evaluates_found hr).eval)
      fun rounds depth ⟨hl, hr⟩ => ?_
    refine (produces_look _ s).bind (hl.bind (hr.bind_silent ?_))
    exact (produces_look _ s').bind (combine_produces_kinds hkinds _ _ s')
  | .condTrue htest hthn => by
    refine found_of_succ rfl ((evaluates_found htest).eval.and (evaluatesBlock_found hthn))
      fun rounds depth ⟨htest, hthn⟩ => ?_
    exact (produces_look _ s).bind (htest.bind ((produces_result true _).bind hthn))
  | .condFalse htest hels => by
    refine found_of_succ rfl ((evaluates_found htest).eval.and (evaluatesBlock_found hels))
      fun rounds depth ⟨htest, hels⟩ => ?_
    exact (produces_look _ s).bind (htest.bind ((produces_result false _).bind hels))
  | .condKind htest hkind => by
    refine found_of_succ rfl (evaluates_found htest).eval fun rounds depth htest => ?_
    refine (produces_look _ s).bind (htest.bind_silent ?_)
    exact (demandBool_produces_kind hkind .choice _ s').bind_error
  | .loop h => by
    -- The bound on rounds must suffice for this loop, too.
    obtain ⟨least, h⟩ := loops_found h
    refine found_of_succ rfl (h.and (.rounds_ge least)) fun rounds depth ⟨h, hrounds⟩ => ?_
    exact (produces_look _ s).bind (h rounds hrounds 0)
  | .seq hfirst hsecond => by
    refine ((evaluates_found hfirst).and (evaluates_found hsecond).eval).imp
      fun rounds depth ⟨hfirst, hsecond⟩ last => ?_
    rw [Expr.statements_seq, evalStatements_append]
    refine (hfirst last).bind ?_
    rw [evalStatements_single]
    exact hsecond
  | .decl h hbinds => by
    refine found_of_succ rfl (evaluates_found h).eval fun rounds depth h => ?_
    refine (produces_look _ s).bind (h.bind_silent ?_)
    refine (produces_look _ _).bind ((produces_declare hbinds _).bind ?_)
    exact (produces_note _ _).bind (produces_resolve scope _ _)
  | .declDuplicate h hbinds => by
    refine found_of_succ rfl (evaluates_found h).eval fun rounds depth h => ?_
    refine (produces_look _ s).bind (h.bind_silent ?_)
    exact (produces_look _ _).bind (produces_declare_error hbinds _ _).bind_error
  | .assign h => by
    refine found_of_succ rfl (evaluates_found h).eval fun rounds depth h => ?_
    refine (produces_look _ s).bind (h.bind_silent ?_)
    refine (produces_update scope _ _ _).bind ?_
    exact (produces_note _ _).bind (produces_resolve scope _ _)
  | .callKind (v := v) h hkind => by
    refine found_of_succ rfl (evaluates_found h).eval fun rounds depth h => ?_
    refine (produces_look _ s).bind (h.bind_silent ?_)
    cases v with
    | closure ps b outer => exact absurd rfl (hkind ps b outer)
    | int | bool | null =>
      exact (produces_look _ s').bind (produces_fail (.notCallable _) _ s')
  | .callArgs hcallee hargs => by
    refine found_of_succ rfl ((evaluates_found hcallee).eval.and (evaluatesArgs_found hargs))
      fun rounds depth ⟨hcallee, hargs⟩ => ?_
    exact (produces_look _ s).bind (hcallee.bind hargs.bind_error)
  | .callParams hcallee hargs halloc hbinds => by
    refine found_of_succ rfl ((evaluates_found hcallee).eval.and (evaluatesArgs_found hargs))
      fun rounds depth ⟨hcallee, hargs⟩ => ?_
    rw [List.append_assoc]
    refine (produces_look _ s).bind (hcallee.bind (hargs.bind ?_))
    exact callClosure_produces_error _ _
      ((produces_newScope halloc).bind (bindParams_produces hbinds _).bind_error)
  | .callError hcallee hargs halloc hbinds hb => by
    refine found_of_succ rfl (((evaluates_found hcallee).eval.and (evaluatesArgs_found hargs)).and
      (evaluatesBlock_found hb)) fun rounds depth ⟨⟨hcallee, hargs⟩, hb⟩ => ?_
    rw [List.append_assoc]
    refine (produces_look _ s).bind (hcallee.bind (hargs.bind ?_))
    exact callClosure_produces_error _ _ (applyClosure_produces halloc hbinds hb)
  | .call hcallee hargs halloc hbinds hb => by
    refine found_of_succ rfl (((evaluates_found hcallee).eval.and (evaluatesArgs_found hargs)).and
      (evaluatesBlock_found hb)) fun rounds depth ⟨⟨hcallee, hargs⟩, hb⟩ => ?_
    rw [List.append_assoc]
    refine (produces_look _ s).bind (hcallee.bind (hargs.bind ?_))
    exact callClosure_produces _ _ (applyClosure_produces halloc hbinds hb)

theorem evaluatesBlock_found {b : Option Expr} {scope : ScopeId} {s s' : Store} {log : List Event}
    {r : Ending Value} (h : EvaluatesBlock b scope s log r s') :
    Enough fun rounds depth => Produces (evalBlock (eval rounds depth) b scope) s log r s' :=
  match h with
  | .none => .of_forall fun _ _ => produces_result Value.null s
  | .some h => (evaluates_found h).eval

theorem evaluatesArgs_found {es : List Expr} {scope : ScopeId} {s s' : Store} {log : List Event}
    {r : Ending (List Value)} (h : EvaluatesArgs es scope s log r s') :
    Enough fun rounds depth => Produces (evalArgs (eval rounds depth) scope es) s log r s' :=
  match h with
  | .nil => .of_forall fun _ _ => produces_result [] s
  | .firstError h => (evaluates_found h).eval.imp fun _ _ h => h.bind_error
  | .restError h hs => by
    refine ((evaluates_found h).eval.and (evaluatesArgs_found hs)).imp fun _ _ ⟨h, hs⟩ => ?_
    exact h.bind hs.bind_error
  | .cons h hs => by
    refine ((evaluates_found h).eval.and (evaluatesArgs_found hs)).imp fun _ _ ⟨h, hs⟩ => ?_
    exact h.bind (hs.bind_silent (produces_result _ s'))

theorem loops_found {test : Expr} {body : Option Expr} {scope : ScopeId} {last : Value}
    {s s' : Store} {log : List Event} {r : Ending Value}
    (h : Loops test body scope last s log r s') :
    ∃ least, Enough fun rounds depth => ∀ left ≥ least, ∀ count,
      Produces (evalLoop (eval rounds depth) test body scope left count last) s log r s' :=
  match h with
  | .testError h => by
    refine ⟨1, (evaluates_found h).eval.imp fun _ _ h left hleft count => ?_⟩
    obtain ⟨left, rfl⟩ := Nat.exists_eq_add_one.mpr hleft
    exact h.bind_error
  | .testKind h hkind => by
    refine ⟨1, (evaluates_found h).eval.imp fun _ _ h left hleft count => ?_⟩
    obtain ⟨left, rfl⟩ := Nat.exists_eq_add_one.mpr hleft
    exact h.bind_silent (demandBool_produces_kind hkind .loop _ s').bind_error
  | .stop h => by
    refine ⟨1, (evaluates_found h).eval.imp fun _ _ h left hleft count => ?_⟩
    obtain ⟨left, rfl⟩ := Nat.exists_eq_add_one.mpr hleft
    refine h.bind_silent ((produces_result false s').bind ?_)
    exact (produces_note _ s').bind (produces_result last s')
  | .bodyError htest hb => by
    refine ⟨1, ((evaluates_found htest).eval.and (evaluatesBlock_found hb)).imp
      fun _ _ ⟨htest, hb⟩ left hleft count => ?_⟩
    obtain ⟨left, rfl⟩ := Nat.exists_eq_add_one.mpr hleft
    exact htest.bind ((produces_result true _).bind hb.bind_error)
  | .round htest hb h => by
    obtain ⟨least, h⟩ := loops_found h
    refine ⟨least + 1, (((evaluates_found htest).eval.and (evaluatesBlock_found hb)).and h).imp
      fun _ _ ⟨⟨htest, hb⟩, h⟩ left hleft count => ?_⟩
    obtain ⟨left, rfl⟩ : ∃ n, left = n + 1 := Nat.exists_eq_add_one.mpr (by omega)
    rw [List.append_assoc]
    refine htest.bind ((produces_result true _).bind (hb.bind ?_))
    exact h left (Nat.le_of_succ_le_succ hleft) (count + 1)

end

end Run

end Treewalk
