import Treewalk.Expr.Show

/-!
# Access to the parts of values and nodes

Integers and truth values cannot be changed at all, and a node cannot get other children than those
it was built with. What can be asked of an object depends on its class; asking for what it has not
is a fault that names the class.
-/

namespace Treewalk

/-- Why a part of an object cannot be had or set. -/
inductive AccessFault where
  /-- Objects of the class cannot be changed. -/
  | immutable (className : String)
  /-- The part was fixed when the object was built. -/
  | readOnly (className : String) (part : Text)
  /-- Objects of the class have no such part. -/
  | missing (className : String) (part : Text)

/-- The wording of a fault. -/
def AccessFault.message : AccessFault → Text
  | immutable className => className ++ " is immutable"
  | readOnly className part => className ++ "." ++ part ++ " is read-only"
  | missing className part => "'" ++ className ++ "' object has no attribute '" ++ part ++ "'"

/-- The class that stands for no object at all. -/
def noClass : String := "NoneType"

namespace Value

/-- The class of a value, as reports name it. -/
def className : Value → String
  | .int _ => "IntVal"
  | .bool _ => "BoolVal"
  | .null => "NullVal"
  | .closure .. => "ClosureVal"

/-- Whether a part of a value can be set. -/
def checkSet (v : Value) : Except AccessFault Unit :=
  match v with
  | .int _ | .bool _ => .error (.immutable v.className)
  | .null | .closure .. => .ok ()

/-- The fault of asking a value that is no function to be applied. -/
def notApplicable (v : Value) : AccessFault := .missing v.className "apply"

end Value

namespace Expr

/-- Whether a part of a node can be set; there may be no node at all. -/
def checkSet (part : Text) : Option Expr → Except AccessFault Unit
  | none => .error (.missing noClass part)
  | some e =>
    if part ∈ e.fieldNames.map Text.ofString then .error (.readOnly e.className part) else .ok ()

/-- The fault of asking nothing to be evaluated. -/
def nothingToEvaluate : AccessFault := .missing noClass "evaluate"

end Expr

end Treewalk
