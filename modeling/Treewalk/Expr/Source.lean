import Treewalk.Expr.Basic
import Treewalk.Number.Integer

/-!
# Source form

The text of values and expressions. A value has a one-line text. An expression is laid out as
source: statements stand on lines of their own and end in a semicolon, and the body of a block is
indented one level deeper than the line on which the block begins.

`margin width level` is the indentation of a level. A width or a level below zero indents by
nothing.

The source of an expression is laid out by calls that contain each other. `layoutDepth` is the
number of those that are open at once where the most are, for a limit on open calls.
-/

namespace Treewalk

open Number

/-- The parameter names of a function, separated by commas. -/
def paramList (params : List Text) : Text := Text.join ", " params

/-- The text of a value. -/
def Value.text : Value → Text
  | .int n => .ofChars (renderInt n)
  | .bool true => "true"
  | .bool false => "false"
  | .null => "null"
  | .closure params _ _ => "function(" ++ paramList params ++ ") \x7b...\x7d"

/-- The calls that are open at once while the text of a value is made. -/
def Value.layoutDepth : Value → Nat
  | .bool _ | .null => 2
  | .int _ | .closure .. => 3

namespace Expr

/-- The indentation of a level. -/
def margin (width level : Int) : Text := List.replicate (width.toNat * level.toNat) ' '

/-- The start of a new line at a level. -/
def newLine (width level : Int) : Text := .char '\n' :: margin width level

mutual

/-- The source of an expression whose first line stands at `level`. -/
def source (width level : Int) : Expr → Text
  | .literal v => v.text
  | .var name => name
  | .print arg => "print(" ++ source width level arg ++ ")"
  | .binop op left right =>
    "(" ++ source width level left ++ " " ++ op.symbol ++ " " ++ source width level right ++ ")"
  | .cond test thn els =>
    "if (" ++ source width level test ++ ") " ++ blockSource width level thn ++
      elseSource width level els
  | .loop test body =>
    "while (" ++ source width level test ++ ") " ++ blockSource width level body
  | .seq first second =>
    source width level first ++ ";" ++ newLine width level ++ source width level second
  | .decl name init => "var " ++ name ++ " = " ++ source width level init
  | .assign name rhs => name ++ " = " ++ source width level rhs
  | .func params body => "function(" ++ paramList params ++ ") " ++ blockSource width level body
  | .call callee args =>
    let head := source width level callee
    let head := match callee with
      | .func .. => "(" ++ head ++ ")"
      | _ => head
    head ++ "(" ++ Text.join ", " (argSources width level args) ++ ")"

/-- The source of a block: braces around a body that is indented one level deeper. -/
def blockSource (width level : Int) : Option Expr → Text
  | none => "\x7b\x7d"
  | some body =>
    "\x7b" ++ newLine width (level + 1) ++ source width (level + 1) body ++ ";" ++
      newLine width level ++ "\x7d"

/-- The source of the `else` part; an empty one is left out. -/
def elseSource (width level : Int) : Option Expr → Text
  | none => []
  | some body =>
    " else " ++ "\x7b" ++ newLine width (level + 1) ++ source width (level + 1) body ++ ";" ++
      newLine width level ++ "\x7d"

/-- The sources of the arguments of a call. -/
def argSources (width level : Int) : List Expr → List Text
  | [] => []
  | arg :: args => source width level arg :: argSources width level args

end

mutual

/-- The calls that are open at once while the source of an expression is laid out. The call for a
chain lays out all statements along the left spine. -/
def layoutDepth : Expr → Nat
  | .literal v => 2 + v.layoutDepth
  | .var _ => 2
  | .print arg => 2 + layoutDepth arg
  | .binop _ left right => 2 + max (layoutDepth left) (layoutDepth right)
  | .cond test thn els =>
    max (2 + layoutDepth test) (3 + max (blockLayoutDepth thn) (blockLayoutDepth els))
  | .loop test body => max (2 + layoutDepth test) (3 + blockLayoutDepth body)
  | .seq first second =>
    let depth := layoutDepth first
    let depth := match first with
      | .seq .. => depth
      | _ => 4 + depth
    max depth (4 + layoutDepth second)
  | .decl _ init => 2 + layoutDepth init
  | .assign _ rhs => 2 + layoutDepth rhs
  | .func _ body => 3 + blockLayoutDepth body
  | .call callee args => max (2 + layoutDepth callee) (4 + listLayoutDepth args)

/-- The calls that are open at once inside the call for a block. -/
def blockLayoutDepth : Option Expr → Nat
  | none => 0
  | some body => layoutDepth body

/-- The most calls that any expression of a list takes. -/
def listLayoutDepth : List Expr → Nat
  | [] => 0
  | e :: es => max (layoutDepth e) (listLayoutDepth es)

end

/-- The indentation used where none is asked for. -/
def standardWidth : Int := 2

/-- The source of a whole program. -/
def text (e : Expr) : Text := source standardWidth 0 e

/-- The `else` part is the block after the word, unless it is missing. -/
theorem elseSource_some (width level : Int) (body : Expr) :
    elseSource width level (some body) = " else " ++ blockSource width level (some body) := by
  simp [elseSource, blockSource]

theorem argSources_eq_map (width level : Int) (args : List Expr) :
    argSources width level args = args.map (source width level) := by
  induction args with
  | nil => rfl
  | cons a as ih => simp [argSources, ih]

/-- A chain is laid out statement by statement. -/
theorem source_eq_statements (width level : Int) (e : Expr) :
    source width level e =
      Text.join (";" ++ newLine width level) (e.statements.map (source width level)) := by
  suffices h : ∀ e after, Text.join (";" ++ newLine width level)
      ((statements.go e after).map (source width level)) =
      Text.join (";" ++ newLine width level) ((e :: after).map (source width level)) by
    rw [statements, h]; simp [Text.join, List.intercalate]
  intro e
  induction e using Expr.rec (motive_2 := fun _ => True) (motive_3 := fun _ => True)
    (motive_4 := fun _ => True) with
  | seq first second ih _ =>
    intro after
    rw [statements.go, ih]
    cases after <;> simp [Text.join, List.intercalate, List.intersperse, source]
  | literal | var | print | binop | cond | loop | decl | assign | func | call => intro after; rfl
  | _ => trivial

end Expr

end Treewalk
