import Treewalk.Machine.Basic

/-!
# Evaluation

Expressions are evaluated by walking the tree. Operands, callees and arguments are evaluated from
left to right, and both operands before either is looked at; what is called is looked at before its
arguments are evaluated.

`eval rounds depth` evaluates with at most `depth` evaluations inside each other, a call included,
and lets each loop make at most `rounds` rounds. Neither bound changes an answer: where one of them
does not suffice the outcome says so. The statements of a chain are evaluated side by side at one
depth, and so are the rounds of a loop, so that neither long programs nor long loops use up the
depth.
-/

namespace Treewalk

namespace Op

/-- The value of an operation on two integers, unless it divides by zero. Arithmetic wraps to 32
bits; quotients are cut toward zero and remainders have the sign of the dividend. -/
def compute (op : Op) (a b : Int) : Option Value :=
  match op with
  | add => some (.ofInt (a + b))
  | sub => some (.ofInt (a - b))
  | mul => some (.ofInt (a * b))
  | div => if b = 0 then none else some (.ofInt (a.tdiv b))
  | mod => if b = 0 then none else some (.ofInt (a.tmod b))
  | gt => some (.bool (b < a))
  | ge => some (.bool (b ≤ a))
  | lt => some (.bool (a < b))
  | le => some (.bool (a ≤ b))
  | eq => some (.bool (a = b))

/-- An operation on two integers fails exactly if it divides by zero. -/
theorem compute_eq_none_iff (op : Op) (a b : Int) :
    op.compute a b = none ↔ (op = div ∨ op = mod) ∧ b = 0 := by
  cases op <;> simp [compute]

end Op

namespace Run

/-- Combines the values of two operands. -/
def combine (op : Op) (left right : Value) : Run Value :=
  match left, right with
  | .int a, .int b =>
    match op.compute a b with
    | some v => result v
    | none => fail (.divisionByZero op a)
  | _, _ => fail (.operandsNotInts op left right)

/-- Demands a truth value of a condition. -/
def demandBool (construct : Construct) : Value → Run Bool
  | .bool b => result b
  | v => fail (.conditionNotBool construct v)

/-- The name under which a call is entered: that of the variable that is called. -/
def calleeName : Expr → Text
  | .var name => name
  | _ => "<anonymous>"

/-- Binds parameters in a scope: the arguments in order, and null where none is left. -/
def bindParams (scope : ScopeId) : List Text → List Value → Run Unit
  | [], _ => result ()
  | param :: params, [] => do
    declare scope param .null
    bindParams scope params []
  | param :: params, arg :: args => do
    declare scope param arg
    bindParams scope params args

section

variable (ev : Expr → ScopeId → Run Value)

/-- Evaluates a block; an empty one gives null. -/
def evalBlock (block : Option Expr) (scope : ScopeId) : Run Value :=
  match block with
  | none => result .null
  | some body => ev body scope

/-- Evaluates expressions one after another for the value of the last. -/
def evalStatements (scope : ScopeId) (last : Value) : List Expr → Run Value
  | [] => result last
  | e :: es => do
    let v ← ev e scope
    evalStatements scope v es

/-- Evaluates expressions one after another for their values. -/
def evalArgs (scope : ScopeId) : List Expr → Run (List Value)
  | [] => result []
  | e :: es => do
    let v ← ev e scope
    let vs ← evalArgs scope es
    result (v :: vs)

/-- Evaluates a loop; `count` rounds have been made and `last` is the value of the latest. -/
def evalLoop (test : Expr) (body : Option Expr) (scope : ScopeId) :
    Nat → Nat → Value → Run Value
  | 0, _, _ => suspend
  | rounds + 1, count, last => do
    let condition ← ev test scope
    if ← demandBool .loop condition then
      let v ← evalBlock ev body scope
      evalLoop test body scope rounds (count + 1) v
    else
      note fun _ => "while finished after " ++ showInt count ++ " iterations"
      result last

/-- Runs the body of a function in a new scope that binds its parameters. -/
def applyClosure (params : List Text) (body : Option Expr) (outer : ScopeId) (args : List Value) :
    Run Value := do
  let scope ← newScope outer
  bindParams scope params args
  evalBlock ev body scope

/-- Calls a function: enters the call, runs the body, and leaves the call unless it failed. -/
def callClosure (site : Option Expr) (name : Text) (params : List Text) (body : Option Expr)
    (outer : ScopeId) (args : List Value) : Run Value := do
  note fun _ => "call " ++ name ++ " argc " ++ showInt args.length ++ " params " ++
    showList (params.map quote)
  if args.length ≠ params.length then
    note fun _ => "arity mismatch in " ++ name ++ " - padding/dropping arguments"
  push ⟨name, params, body, outer, args, site⟩
  let v ← applyClosure ev params body outer args
  pop
  result v

end

/-- Evaluates an expression in a scope. -/
def eval (rounds : Nat) : Nat → Expr → ScopeId → Run Value
  | 0, _, _ => exhaust
  | depth + 1, e, scope => do
    look e
    match e with
    | .literal v => result v
    | .var name => resolve scope name
    | .print arg =>
      let v ← eval rounds depth arg scope
      writeLine v.text
      result v
    | .binop op left right =>
      let a ← eval rounds depth left scope
      let b ← eval rounds depth right scope
      look e
      combine op a b
    | .cond test thn els =>
      let condition ← eval rounds depth test scope
      if ← demandBool .choice condition then evalBlock (eval rounds depth) thn scope
      else evalBlock (eval rounds depth) els scope
    | .loop test body => evalLoop (eval rounds depth) test body scope rounds 0 .null
    | .seq .. => evalStatements (eval rounds depth) scope .null e.statements
    | .decl name init =>
      let v ← eval rounds depth init scope
      look e
      declare scope name v
      note fun _ => "declare " ++ name ++ " " ++ v.shown
      resolve scope name
    | .assign name rhs =>
      let v ← eval rounds depth rhs scope
      update scope name v
      note fun _ => "assign " ++ name ++ " " ++ v.shown
      resolve scope name
    | .func params body => result (.closure params body scope)
    | .call callee args =>
      match ← eval rounds depth callee scope with
      | .closure params body outer =>
        let vs ← evalArgs (eval rounds depth) scope args
        callClosure (eval rounds depth) (some e) (calleeName callee) params body outer vs
      | v =>
        look e
        fail (.notCallable v.text)

/-- Calls a value that is no part of a call expression; only closures can be called. -/
def callValue (rounds depth : Nat) (callee : Value) (args : List Value) : Run Value :=
  match callee with
  | .closure params body outer =>
    callClosure (eval rounds depth) none "<anonymous>" params body outer args
  | v => fail (.notCallable v.text)

/-- Evaluates any data: a built expression is evaluated, and all else is no node of a tree. -/
def evalDocument (rounds depth : Nat) (d : Document) (scope : ScopeId) : Run Value :=
  match d with
  | .node e => eval rounds depth e scope
  | d => do
    change fun m => { m with current := d }
    fail (.unknownNode d.shown)

/-- Takes a step in a machine of its own, which shares the store and everything that is written: the
frames, the current node and the kept lines of this machine stay as they are. -/
def aside {α : Type} (x : Run α) : Run α := fun m =>
  let (outcome, m') :=
    x { m with frames := [], current := .null, records := .empty, keep := standardKeep }
  (outcome,
    { m' with frames := m.frames, current := m.current, records := m.records, keep := m.keep })

end Run

end Treewalk
