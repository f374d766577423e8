import Treewalk.Proofs.Machine.Ends

/-!
# The evaluations that an evaluation makes

An evaluation takes up parts of its expression, and bodies of functions, in some order, each in the
machine that the one before has left. `Run.visits` lists them: what is evaluated, in which scope,
and from which machine. The list ends with the first evaluation that gives no result, because
nothing is taken up after it.

With this list, whatever an evaluation does can be told apart by the evaluations that did it, also
if it fails or runs out of depth or rounds on the way.
-/

namespace Treewalk

/-- An evaluation that is about to begin. -/
structure Visit where
  expr : Expr
  scope : ScopeId
  machine : Machine

namespace Run

/-- What follows a step, if the step gives a result. -/
def after {α β : Type} (x : Run α) (f : α → Machine → List β) (m : Machine) : List β :=
  match x m with
  | (.done a, m') => f a m'
  | _ => []

/-- The steps from a call to the run of its body, which give the scope for it. -/
def enter (site : Option Expr) (name : Text) (params : List Text) (body : Option Expr)
    (outer : ScopeId) (args : List Value) : Run ScopeId :=
  noteCall name params args >>= fun _ => push ⟨name, params, body, outer, args, site⟩ >>= fun _ =>
    newScope outer >>= fun inner => bindParams inner params args >>= fun _ => result inner

/-- A call is entered, its body is run, and it is left. -/
theorem callClosure_eq_enter (ev : Expr → ScopeId → Run Value) (site : Option Expr) (name : Text)
    (params : List Text) (body : Option Expr) (outer : ScopeId) (args : List Value) :
    callClosure ev site name params body outer args =
      (enter site name params body outer args >>= fun inner =>
        evalBlock ev body inner >>= fun v => pop >>= fun _ => result v) := by
  rw [callClosure_eq]
  unfold enter applyClosure
  simp only [bind_assoc]
  rfl

section

variable (ev : Expr → ScopeId → Run Value)

/-- A block is taken up if there is one. -/
def visitsBlock (block : Option Expr) (scope : ScopeId) (m : Machine) : List Visit :=
  block.toList.map (⟨·, scope, m⟩)

/-- Statements and arguments are taken up one after another. -/
def visitsInTurn (scope : ScopeId) : List Expr → Machine → List Visit
  | [], _ => []
  | e :: es, m => ⟨e, scope, m⟩ :: (ev e scope).after (fun _ => visitsInTurn scope es) m

/-- The condition and the body of a loop are taken up in turns. -/
def visitsLoop (test : Expr) (body : Option Expr) (scope : ScopeId) : Nat → Machine → List Visit
  | 0, _ => []
  | rounds + 1, m => ⟨test, scope, m⟩ :: (ev test scope).after (fun condition =>
      (demandBool .loop condition).after fun holds m =>
        if holds then
          visitsBlock body scope m ++
            (evalBlock ev body scope).after (fun _ => visitsLoop test body scope rounds) m
        else []) m

/-- The parts of an expression that was taken up. -/
def visitsParts (rounds : Nat) (e : Expr) (scope : ScopeId) (m : Machine) : List Visit :=
  match e with
  | .literal _ | .var _ | .func .. => []
  | .print a | .decl _ a | .assign _ a => [⟨a, scope, m⟩]
  | .binop _ left right =>
    ⟨left, scope, m⟩ :: (ev left scope).after (fun _ m => [⟨right, scope, m⟩]) m
  | .cond test thn els => ⟨test, scope, m⟩ :: (ev test scope).after (fun condition =>
      (demandBool .choice condition).after fun holds =>
        visitsBlock (if holds then thn else els) scope) m
  | .loop test body => visitsLoop ev test body scope rounds m
  | .seq .. => visitsInTurn ev scope e.statements m
  | .call callee args => ⟨callee, scope, m⟩ :: (ev callee scope).after (fun
      | .closure params body outer => fun m =>
        visitsInTurn ev scope args m ++ (evalArgs ev scope args).after (fun vs =>
          (enter (some e) (calleeName callee) params body outer vs).after (visitsBlock body)) m
      | _ => fun _ => []) m

end

/-- The evaluations that an evaluation makes, in order. -/
def visits (rounds : Nat) : Nat → Expr → ScopeId → Machine → List Visit
  | 0, _, _, _ => []
  | depth + 1, e, scope, m =>
    visitsParts (eval rounds depth) rounds e scope { m with current := .node e }

end Run

end Treewalk
