import Treewalk.Document.Show

/-!
# Faults of evaluation

The ways in which evaluation can fail, each with what its message needs, and the kinds under which
failures are reported.
-/

namespace Treewalk

/-- The kinds under which failures of programs and documents are reported. -/
inductive FaultKind where
  | duplicateVariable
  | type
  | divisionByZero
  | notCallable
  | stackExhaustion
  | malformedTree
  /-- A text could not be read as a document. -/
  | parse
  deriving DecidableEq

/-- The name of a kind. -/
def FaultKind.name : FaultKind → String
  | duplicateVariable => "DuplicateVariableError"
  | type => "TypeError"
  | divisionByZero => "DivisionByZero"
  | notCallable => "NotCallableError"
  | stackExhaustion => "StackExhaustion"
  | malformedTree => "MalformedTree"
  | parse => "ParseError"

/-- The constructs that take a condition. -/
inductive Construct where
  | choice
  | loop
  deriving DecidableEq

/-- The word for a construct in messages. -/
def Construct.name : Construct → String
  | choice => "if"
  | loop => "while"

/-- Why evaluation fails. -/
inductive Fault where
  /-- A scope binds the name already. -/
  | duplicateVariable (name : Text)
  /-- A condition is not a truth value. -/
  | conditionNotBool (construct : Construct) (given : Value)
  /-- An operand is not an integer. -/
  | operandsNotInts (op : Op) (left right : Value)
  /-- A division or a remainder by zero. -/
  | divisionByZero (op : Op) (dividend : Int)
  /-- The value that is called is not a closure; `given` is its text. -/
  | notCallable (given : Text)
  /-- What should be evaluated is not an expression; `given` is its shown form. -/
  | unknownNode (given : String)

namespace Fault

/-- The kind of a fault. -/
def kind : Fault → FaultKind
  | duplicateVariable _ => .duplicateVariable
  | conditionNotBool .. => .type
  | operandsNotInts .. => .type
  | divisionByZero .. => .divisionByZero
  | notCallable _ => .notCallable
  | unknownNode _ => .malformedTree

/-- The wording of a fault. -/
def message : Fault → Text
  | duplicateVariable name => "Variable '" ++ name ++ "' is already declared in this scope"
  | conditionNotBool construct given =>
    construct.name ++ " condition must be a bool, got " ++ given.kind
  | operandsNotInts op left right =>
    "operator '" ++ op.symbol ++ "' expects int operands, got " ++ left.kind ++ " " ++ op.symbol ++
      " " ++ right.kind
  | divisionByZero op dividend => showInt dividend ++ " " ++ op.symbol ++ " 0"
  | notCallable given => "Value is not a function: " ++ given
  | unknownNode given => "Unknown expression node: " ++ given

end Fault

end Treewalk
