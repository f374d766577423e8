import Treewalk.Document.Show

/-!
# Faults of tree documents

What can be wrong with a document that should describe a tree, and what can be wrong with an
expression that should be written as a document. Most faults show the data that are at fault, and
so they can be reported only if these can be shown (`TreeFault.isShowable`).
-/

namespace Treewalk

/-- Why a document describes no tree, or a tree has no document. -/
inductive TreeFault where
  /-- A node lacks a field, or the field is null. -/
  | missingField (tag field : String)
  /-- A field that should be a name is not, or is empty. -/
  | notAName (tag field : String)
  /-- A child that should be an expression is an empty block. -/
  | emptyChild (tag field : String)
  | notAnInt (given : Data)
  | intOutOfRange (given : Int)
  | notABool (given : Data)
  | unexpected (given : Data)
  | noTag (given : Data)
  | unknownTag (tag : Data)
  | bodyNotAList (tag : String)
  | unknownOperator (given : Data)
  | paramsNotNames
  | argsNotAList
  | emptyArgument
  /-- The document is nested more deeply than the reader goes. -/
  | tooDeep
  | notEncodable (given : Data)

namespace TreeFault

/-- The message for a document that is too deep, where it is reported as malformed. -/
def depthMessage : String := "tree document is nested too deeply"

/-- The wording of a fault. -/
def message : TreeFault → String
  | missingField tag field => "'" ++ tag ++ "' node is missing required field '" ++ field ++ "'"
  | notAName tag field =>
    "'" ++ tag ++ "' node field '" ++ field ++ "' must be a non-empty string"
  | emptyChild tag field => "'" ++ tag ++ "' node field '" ++ field ++ "' must not be empty"
  | notAnInt given => "int literal must be an integer, got " ++ given.shown
  | intOutOfRange n => "int literal " ++ showInt n ++ " is outside the 32-bit range"
  | notABool given => "bool literal must be true or false, got " ++ given.shown
  | unexpected given => "Unexpected tree element: " ++ given.shown
  | noTag given => "Tree node has no 'tag': " ++ given.shown
  | unknownTag tag => "Unknown node tag: " ++ tag.shown
  | bodyNotAList tag => "'" ++ tag ++ "' body must be a list"
  | unknownOperator given => "Unknown operator: " ++ given.shown
  | paramsNotNames => "'function' params must be a list of names"
  | argsNotAList => "'call' args must be a list"
  | emptyArgument => "'call' argument must not be empty"
  | tooDeep => "maximum recursion depth exceeded"
  | notEncodable given => "Cannot encode " ++ given.shown

/-- The message in place of one that cannot be shown. -/
def unshowable : String :=
  "Exceeds the limit (" ++ showInt Number.digitLimit ++
    " digits) for integer string conversion; use sys.set_int_max_str_digits() to increase the limit"

/-- Whether the data that a fault shows can be shown. -/
def isShowable : TreeFault → Bool
  | notAnInt given | notABool given | unexpected given | noTag given | unknownTag given
  | unknownOperator given | notEncodable given => given.isShowable
  | intOutOfRange n => Number.hasFewDigits n
  | missingField .. | notAName .. | emptyChild .. | bodyNotAList _ | paramsNotNames | argsNotAList
  | emptyArgument | tooDeep => true

end TreeFault

end Treewalk
