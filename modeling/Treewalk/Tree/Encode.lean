import Treewalk.Tree.Fault

/-!
# From expressions to documents

The document of an expression is a record whose `tag` names the kind of the node. A chain of
statements is one `block` record, whose body lists the statements of the chain. Only a literal that
holds a closure has no document.

`encodeParts` gives the documents of the statements of an expression, one unless it is a chain, so
that the recursion follows the expression.
-/

namespace Treewalk.Tree

open Document

/-- The document of an expression from the documents of its statements. -/
def joinParts : List Document → Document
  | [d] => d
  | ds => record [("tag", text "block"), ("body", list ds)]

mutual

/-- The documents of the statements of an expression, in order. -/
def encodeParts : Expr → Except TreeFault (List Document)
  | .literal (.int n) => .ok [record [("tag", text "int"), ("value", int n)]]
  | .literal (.bool b) => .ok [record [("tag", text "bool"), ("value", bool b)]]
  | .literal .null => .ok [record [("tag", text "null")]]
  | .literal v => .error (.notEncodable (node (.literal v)))
  | .var name => .ok [record [("tag", text "var"), ("name", text name)]]
  | .print arg => do
    let arg ← encodeParts arg
    return [record [("tag", text "print"), ("expr", joinParts arg)]]
  | .binop op left right => do
    let left ← encodeParts left
    let right ← encodeParts right
    return [record [("tag", text "binop"), ("op", text (.ofString op.symbol)),
      ("left", joinParts left), ("right", joinParts right)]]
  | .cond test thn els => do
    let test ← encodeParts test
    let thn ← encodeBlock thn
    let els? ← encodeElse els
    return [record ([("tag", text "if"), ("cond", joinParts test), ("then", thn)] ++ els?)]
  | .loop test body => do
    let test ← encodeParts test
    let body ← encodeBlock body
    return [record [("tag", text "while"), ("cond", joinParts test), ("body", body)]]
  | .seq first second => do
    let before ← encodeParts first
    let last ← encodeParts second
    return before ++ [joinParts last]
  | .decl name init => do
    let init ← encodeParts init
    return [record [("tag", text "vardecl"), ("name", text name), ("expr", joinParts init)]]
  | .assign name rhs => do
    let rhs ← encodeParts rhs
    return [record [("tag", text "assign"), ("name", text name), ("expr", joinParts rhs)]]
  | .func params body => do
    let body ← encodeBlock body
    return [record [("tag", text "function"), ("params", list (params.map text)), ("body", body)]]
  | .call callee args => do
    let callee ← encodeParts callee
    let args ← encodeArgs args
    return [record [("tag", text "call"), ("func", joinParts callee), ("args", list args)]]

/-- The document of a block; an empty one is null. -/
def encodeBlock : Option Expr → Except TreeFault Document
  | none => .ok null
  | some body => do return joinParts (← encodeParts body)

/-- The `else` field; an empty branch has none. -/
def encodeElse : Option Expr → Except TreeFault (List (String × Document))
  | none => .ok []
  | some body => do return [("else", joinParts (← encodeParts body))]

/-- The documents of the arguments of a call. -/
def encodeArgs : List Expr → Except TreeFault (List Document)
  | [] => .ok []
  | arg :: args => do
    let first ← encodeParts arg
    let rest ← encodeArgs args
    return joinParts first :: rest

end

/-- The document of an expression. -/
def encode (e : Expr) : Except TreeFault Document := do return joinParts (← encodeParts e)

/-- The document of anything that may stand where a tree is expected: null for nothing, the document
of an expression, and a fault for other data. -/
def encodeDocument : Document → Except TreeFault Document
  | .null => .ok .null
  | .node e => encode e
  | d => .error (.notEncodable d)

end Treewalk.Tree
