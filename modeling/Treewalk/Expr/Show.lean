import Treewalk.Expr.Source
import Treewalk.Text.Quoted

/-!
# Constructor form

The text of a value or an expression that names every node and every field, as messages and reports
show it.
-/

namespace Treewalk

open Number Text

/-- A text between quotes, as a string. -/
def quote (t : Text) : String := String.ofList (quoted t)

/-- The words that stand for the truth values in shown data. -/
def showBool (b : Bool) : String := if b then "True" else "False"

/-- An integer in decimal, as a string. -/
def showInt (n : Int) : String := String.ofList (renderInt n)

/-- Texts between brackets, separated by commas. -/
def showList (items : List String) : String := "[" ++ ", ".intercalate items ++ "]"

/-- Texts between parentheses, separated by commas; a single one is followed by a comma. -/
def showTuple : List String → String
  | [item] => "(" ++ item ++ ",)"
  | items => "(" ++ ", ".intercalate items ++ ")"

namespace Value

/-- The constructor form of a value. -/
def shown : Value → String
  | .int n => "IntVal(" ++ showInt n ++ ")"
  | .bool b => "BoolVal(" ++ showBool b ++ ")"
  | .null => "NULL"
  | .closure params _ _ => "<ClosureVal params=" ++ showList (params.map quote) ++ ">"

end Value

namespace Op

/-- The constructor form of an operator. -/
def shown (op : Op) : String := "<Op." ++ op.name ++ ": " ++ quote op.symbol ++ ">"

end Op

namespace Expr

mutual

/-- The constructor form of an expression. -/
def shown : Expr → String
  | .literal v => "Literal(value=" ++ v.shown ++ ")"
  | .var name => "VarRef(name=" ++ quote name ++ ")"
  | .print arg => "Print(expr=" ++ arg.shown ++ ")"
  | .binop op left right =>
    "BinOp(op=" ++ op.shown ++ ", left=" ++ left.shown ++ ", right=" ++ right.shown ++ ")"
  | .cond test thn els =>
    "If(cond=" ++ test.shown ++ ", thn=" ++ shownBlock thn ++ ", els=" ++ shownBlock els ++ ")"
  | .loop test body => "While(cond=" ++ test.shown ++ ", body=" ++ shownBlock body ++ ")"
  | .seq first second => "Seq(first=" ++ first.shown ++ ", second=" ++ second.shown ++ ")"
  | .decl name init => "VarDecl(name=" ++ quote name ++ ", expr=" ++ init.shown ++ ")"
  | .assign name rhs => "Assign(name=" ++ quote name ++ ", expr=" ++ rhs.shown ++ ")"
  | .func params body =>
    "FuncDecl(params=" ++ showTuple (params.map quote) ++ ", body=" ++ shownBlock body ++ ")"
  | .call callee args =>
    "FuncApp(func=" ++ callee.shown ++ ", args=" ++ showTuple (shownArgs args) ++ ")"

/-- The constructor form of a block; an empty one is `None`. -/
def shownBlock : Option Expr → String
  | none => "None"
  | some body => body.shown

/-- The constructor forms of the arguments of a call. -/
def shownArgs : List Expr → List String
  | [] => []
  | arg :: args => arg.shown :: shownArgs args

end

/-- The constructor form of the chain that a list of statements gives when some of them are missing:
missing ones are dropped at the start and stand as `None` afterwards. -/
def shownChain (statements : List (Option Expr)) : String :=
  match statements.dropWhile Option.isNone with
  | [] => "None"
  | first :: rest =>
    rest.foldl (fun text next => "Seq(first=" ++ text ++ ", second=" ++ shownBlock next ++ ")")
      (shownBlock first)

/-- The class of a node, as reports name it. -/
def className : Expr → String
  | .literal _ => "Literal"
  | .var _ => "VarRef"
  | .print _ => "Print"
  | .binop .. => "BinOp"
  | .cond .. => "If"
  | .loop .. => "While"
  | .seq .. => "Seq"
  | .decl .. => "VarDecl"
  | .assign .. => "Assign"
  | .func .. => "FuncDecl"
  | .call .. => "FuncApp"

/-- The names of the fields of a node. -/
def fieldNames : Expr → List String
  | .literal _ => ["value"]
  | .var _ => ["name"]
  | .print _ => ["expr"]
  | .binop .. => ["op", "left", "right"]
  | .cond .. => ["cond", "thn", "els"]
  | .loop .. => ["cond", "body"]
  | .seq .. => ["first", "second"]
  | .decl .. => ["name", "expr"]
  | .assign .. => ["name", "expr"]
  | .func .. => ["params", "body"]
  | .call .. => ["func", "args"]

/-- Whether two expressions fall into one bucket of a hash table: their nodes have the same class
and they have the same source. -/
def sameBucket (a b : Expr) : Bool := a.className == b.className && a.text == b.text

end Expr

end Treewalk
