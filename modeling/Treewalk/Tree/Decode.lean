import Treewalk.Tree.Fault

/-!
# From documents to expressions

A tree document is a record with a `tag`, a list of statements, or a bare scalar that stands for a
literal. Reading one gives an expression, or nothing where the document is an empty block.

* A list of statements drops nulls and empty statements and folds the rest into a chain.
* `block` and `program` hold such a list as their body.
* A child that is required may be neither absent, nor null, nor an empty block.
* The `then` of an `if` and the `body` of a `while` must be there, but may be null or empty.
* A body, parameter or argument list that counts as empty is read as no list at all.

Reading goes down at most `depth` levels of nesting; below that it gives up with
`TreeFault.tooDeep`. A link is read as the collection that it stands for, so data that contain
themselves have no end of levels.
-/

namespace Treewalk.Tree

open Document

/-- The result of reading a document as a tree. -/
abbrev Decoded := Except TreeFault (Option Expr)

/-- The value of a field that must be there. -/
def required (tag : String) (entries : List (Document × Document)) (field : String) :
    Except TreeFault Document :=
  match field? field entries with
  | none | some .null => .error (.missingField tag field)
  | some d => .ok d

/-- The value of a field that must be a name. -/
def requiredName (tag : String) (entries : List (Document × Document)) :
    Except TreeFault Text := do
  match ← required tag entries "name" with
  | .text t => if t.isEmpty then throw (.notAName tag "name") else return t
  | _ => throw (.notAName tag "name")

/-- The parameter names in a list. -/
def paramNames : List Document → Except TreeFault (List Text)
  | [] => .ok []
  | .text t :: rest =>
    if t.isEmpty then .error .paramsNotNames
    else match paramNames rest with | .ok names => .ok (t :: names) | .error f => .error f
  | _ :: _ => .error .paramsNotNames

section

/-! The argument `table` holds the collections that links stand for. -/

variable (table : Array Document)

/-- The literal of an integer. -/
def intLiteral : Document → Except TreeFault Expr
  | .int n =>
    if Value.intMin ≤ n ∧ n ≤ Value.intMax then .ok (.literal (.int n))
    else .error (.intOutOfRange n)
  | d => .error (.notAnInt ⟨d, table⟩)

/-- The items of a list field; a field that is absent or counts as empty has none. -/
def listField (fault : TreeFault) (entries : List (Document × Document)) (field : String) :
    Except TreeFault (List Document) :=
  match field? field entries with
  | none => .ok []
  | some d =>
    if d.isEmpty then .ok []
    else match Data.follow table d with | .list items => .ok items | _ => .error fault

variable (child : Document → Decoded)

/-- The statements of a list, without the nulls and the empty ones. -/
def statements : List Document → Except TreeFault (List Expr)
  | [] => .ok []
  | .null :: rest => statements rest
  | d :: rest => do
    let e? ← child d
    let es ← statements rest
    return match e? with | none => es | some e => e :: es

/-- The arguments of a call. -/
def arguments : List Document → Except TreeFault (List Expr)
  | [] => .ok []
  | d :: rest => do
    match ← child d with
    | none => throw .emptyArgument
    | some e =>
      let es ← arguments rest
      return e :: es

/-- A child that must be an expression. -/
def requiredExpr (tag : String) (entries : List (Document × Document)) (field : String) :
    Except TreeFault Expr := do
  match ← child (← required tag entries field) with
  | none => throw (.emptyChild tag field)
  | some e => return e

/-- A child that may be an empty block. -/
def block (entries : List (Document × Document)) (field : String) : Decoded :=
  match field? field entries with
  | none | some .null => .ok none
  | some d => child d

/-- The expression that a record with the given tag describes. -/
def tagged (entries : List (Document × Document)) (tag : String) : Decoded := do
  match tag with
  | "int" => return some (← intLiteral table (← required tag entries "value"))
  | "bool" =>
    match ← required tag entries "value" with
    | .bool b => return some (.literal (.bool b))
    | d => throw (.notABool ⟨d, table⟩)
  | "null" => return some (.literal .null)
  | "program" | "block" =>
    let items ← listField table (.bodyNotAList tag) entries "body"
    child (.list items)
  | "seq" =>
    let first ← requiredExpr child tag entries "first"
    let second ← requiredExpr child tag entries "second"
    return some (.seq first second)
  | "var" => return some (.var (← requiredName tag entries))
  | "vardecl" =>
    let name ← requiredName tag entries
    let init ← requiredExpr child tag entries "expr"
    return some (.decl name init)
  | "assign" =>
    let name ← requiredName tag entries
    let rhs ← requiredExpr child tag entries "expr"
    return some (.assign name rhs)
  | "binop" =>
    let given ← required tag entries "op"
    match given.asText.toString?.bind Op.lookup? with
    | none => throw (.unknownOperator ⟨given, table⟩)
    | some op =>
      let left ← requiredExpr child tag entries "left"
      let right ← requiredExpr child tag entries "right"
      return some (.binop op left right)
  | "if" =>
    if (field? "then" entries).isNone then throw (.missingField tag "then")
    let test ← requiredExpr child tag entries "cond"
    let thn ← block child entries "then"
    let els ← block child entries "else"
    return some (.cond test thn els)
  | "while" =>
    if (field? "body" entries).isNone then throw (.missingField tag "body")
    let test ← requiredExpr child tag entries "cond"
    let body ← block child entries "body"
    return some (.loop test body)
  | "print" => return some (.print (← requiredExpr child tag entries "expr"))
  | "function" =>
    let params ← paramNames (← listField table .paramsNotNames entries "params")
    let body ← block child entries "body"
    return some (.func params body)
  | "call" =>
    let args ← arguments child (← listField table .argsNotAList entries "args")
    let callee ← requiredExpr child tag entries "func"
    return some (.call callee args)
  | _ => throw (.unknownTag ⟨.text tag, table⟩)

end

/-- Reads a document as a tree, at most `depth` levels deep. -/
def decodeAt (table : Array Document) : Nat → Document → Decoded
  | 0, _ => .error .tooDeep
  | depth + 1, d =>
    match Data.follow table d with
    | .list items => do return Expr.ofStatements? (← statements (decodeAt table depth) items)
    | .null => .ok (some (.literal .null))
    | .bool b => .ok (some (.literal (.bool b)))
    | .int n => do return some (← intLiteral table (.int n))
    | .node e => .ok (some e)
    | .map entries =>
      match field? "tag" entries with
      | none => .error (.noTag ⟨d, table⟩)
      | some .null => tagged table (decodeAt table depth) entries "null"
      | some (.text t) =>
        match t.toString? with
        | some tag => tagged table (decodeAt table depth) entries tag
        | none => .error (.unknownTag ⟨.text t, table⟩)
      | some tag => .error (.unknownTag ⟨tag, table⟩)
    | _ => .error (.unexpected ⟨d, table⟩)

/-- Reads data as a tree, at most `depth` levels deep. -/
def decode (depth : Nat) (data : Data) : Decoded := decodeAt data.table depth data.root

/-- The number of levels down to which documents are read. -/
def depthLimit : Nat := 400

end Treewalk.Tree
