import Treewalk.Machine.Fault
import Treewalk.Machine.Records
import Treewalk.Store
import Treewalk.Text.CodePoint

/-!
# The machine

The state in which expressions are evaluated, and the steps from which evaluation is put together.

* `store` holds the scopes.
* `frames` are the calls that have been entered and not left, the innermost first. A call that fails
  stays there, so that the failure can be reported with the calls that led to it.
* `current` is what was last taken up for evaluation, `Document.null` if nothing was.
* `records` are the lines printed last, of which at most `keep` are kept. `written` is the whole
  printed text and is never cut.
* `trace` holds a line for each noteworthy step, provided that `tracing` is on.

A step (`Run`) ends in one of four ways: with a result, with a fault, because the nesting of
evaluations used up its budget (`exhausted`), or because a loop used up its rounds (`unfinished`).
The state that it leaves holds everything that was done before the end.
-/

namespace Treewalk

/-- A call that has been entered. -/
structure Frame where
  /-- The name under which the function was called. -/
  name : Text
  params : List Text
  body : Option Expr
  /-- The scope in which the function was made. -/
  scope : ScopeId
  /-- All arguments, also those that no parameter takes. -/
  args : List Value
  /-- The call expression, if the call came from one. -/
  site : Option Expr

/-- The state of evaluation. -/
structure Machine where
  store : Store
  frames : List Frame
  current : Document
  records : Records
  keep : Int
  written : Text.Buffer
  tracing : Bool
  trace : Array Text

/-- The number of printed lines that are kept where nothing else is asked for. -/
def standardKeep : Int := 10000

/-- The machine before anything was evaluated. -/
def Machine.initial (keep : Int) (tracing : Bool) : Machine :=
  ⟨.initial, [], .null, .empty, keep, .empty, tracing, #[]⟩

/-- How a step ends. -/
inductive Outcome (α : Type) where
  | done (a : α)
  | failed (fault : Fault)
  | exhausted
  | unfinished

/-- A step of the machine. -/
def Run (α : Type) : Type := Machine → Outcome α × Machine

namespace Run

variable {α β : Type}

/-- The step that only gives a result. -/
@[inline]
def result (a : α) : Run α := fun m => (.done a, m)

/-- One step after another; the second is not taken unless the first gives a result. -/
@[inline]
def andThen (x : Run α) (f : α → Run β) : Run β := fun m =>
  match x m with
  | (.done a, m) => f a m
  | (.failed fault, m) => (.failed fault, m)
  | (.exhausted, m) => (.exhausted, m)
  | (.unfinished, m) => (.unfinished, m)

instance : Monad Run where
  pure := result
  bind := andThen

theorem bind_apply (x : Run α) (f : α → Run β) (m : Machine) :
    (x >>= f) m = match x m with
      | (.done a, m) => f a m
      | (.failed fault, m) => (.failed fault, m)
      | (.exhausted, m) => (.exhausted, m)
      | (.unfinished, m) => (.unfinished, m) := rfl

/-- The step that fails. -/
@[inline]
def fail (fault : Fault) : Run α := fun m => (.failed fault, m)

/-- The step for which no budget is left. -/
@[inline]
def exhaust : Run α := fun m => (.exhausted, m)

/-- The step for which no rounds are left. -/
@[inline]
def suspend : Run α := fun m => (.unfinished, m)

/-- The step that only looks at the state. -/
@[inline]
def inspect (f : Machine → α) : Run α := fun m => (.done (f m), m)

/-- The step that only changes the state. -/
@[inline]
def change (f : Machine → Machine) : Run Unit := fun m => (.done (), f m)

/-- Notes what is taken up for evaluation. -/
@[inline]
def look (e : Expr) : Run Unit := change fun m => { m with current := .node e }

/-- Adds a line to the trace, if tracing is on. -/
@[inline]
def note (line : Unit → Text) : Run Unit := change fun m =>
  if m.tracing then { m with trace := m.trace.push ("[DBG] " ++ line ()) } else m

/-- Prints a line. -/
def writeLine (line : Text) : Run Unit := change fun m =>
  { m with
    written := (m.written.push line).push "\n"
    records := m.records.push m.keep line }

/-- The value of a name as seen from a scope. -/
def resolve (scope : ScopeId) (name : Text) : Run Value := inspect fun m =>
  m.store.resolve scope name

/-- Declares a name in a scope, unless the scope binds it already. -/
def declare (scope : ScopeId) (name : Text) (v : Value) : Run Unit := fun m =>
  if m.store.binds scope name then (.failed (.duplicateVariable name), m)
  else (.done (), { m with store := m.store.set scope name v })

/-- Assigns to a name as seen from a scope. -/
def update (scope : ScopeId) (name : Text) (v : Value) : Run Unit := change fun m =>
  { m with store := m.store.update scope name v }

/-- Makes a scope inside another one. -/
def newScope (outer : ScopeId) : Run ScopeId := fun m =>
  let (i, store) := m.store.alloc (some outer)
  (.done i, { m with store := store })

/-- Enters a call. -/
@[inline]
def push (frame : Frame) : Run Unit := change fun m => { m with frames := frame :: m.frames }

/-- Leaves the innermost call. -/
@[inline]
def pop : Run Unit := change fun m => { m with frames := m.frames.tail }

end Run

end Treewalk
