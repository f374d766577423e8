import Treewalk.Expr.Source
import Treewalk.Proofs.Number.Decimal
import Treewalk.Proofs.Regrouping.LeftNested
import Treewalk.Proofs.Source.FrontEnd
import Treewalk.Proofs.Text.CodePoint

/-!
# Reading source

A reader for the texts that `Expr.source` writes. It asks for no level and no width: where a line
ends, it skips the spaces that follow. A word is a longest run of word characters, and the words
that are no names decide what is read. Behind an expression stand the argument lists with which it
is called.

The functions give what they read and the text that is left. Each call takes one unit of the fuel
that its caller has, and without fuel nothing is read. What is read does not depend on how much more
fuel there is than is used up; so results are stated for all fuel that suffices (`Gives`).
-/

namespace Treewalk.Source

open Number

/-! ## Pieces of text -/

/-- What follows a text in another one that starts with it. -/
def after? : Text → Text → Option Text
  | [], t => some t
  | _ :: _, [] => none
  | p :: ps, q :: t => if p = q then after? ps t else none

/-- A character of a word: a name, a numeral with its sign, or a word with a meaning of its own. -/
def isWordChar (c : Char) : Bool := isNameChar c || c = '-'

/-- Splits a text behind its first word. -/
def takeWord (t : Text) : Text × Text :=
  (t.takeWhile (·.isCharWith isWordChar), t.dropWhile (·.isCharWith isWordChar))

def skipSpaces (t : Text) : Text := t.dropWhile (· = .char ' ')

/-- The integer that a numeral denotes. -/
def number? (word : Text) : Option Int := do
  let cs ← word.toChars?
  (readInt 10 cs).toOption

/-- Reads an operator with the spaces around it. -/
def readOp (t : Text) : Option (Op × Text) :=
  Op.all.findSome? fun op => (after? (" " ++ op.symbol ++ " ") t).map (op, ·)

/-- The name that an expression consists of. -/
def name? : Expr → Option Text
  | .var name => some name
  | _ => none

/-- The chain of the statements that are already read, if any, and of an expression. -/
def behind : Option Expr → Expr → Expr
  | none, e => e
  | some before, e => before.followedBy e

/-! ## The reader -/

mutual

/-- Reads an expression with the calls behind it. -/
def readExpr : Nat → Text → Option (Expr × Text)
  | 0, _ => none
  | fuel + 1, t => do
    let (head, t) ← readHead fuel t
    readCalls fuel head t

/-- Reads the argument lists with which a callee is called in turn. -/
def readCalls : Nat → Expr → Text → Option (Expr × Text)
  | 0, _, _ => none
  | fuel + 1, callee, t =>
    match after? "(" t with
    | none => some (callee, t)
    | some t => do
      let (args, t) ← readArgs fuel t
      readCalls fuel (.call callee args) t

/-- Reads arguments to the closing bracket. -/
def readArgs : Nat → Text → Option (List Expr × Text)
  | 0, _ => none
  | fuel + 1, t =>
    match after? ")" t with
    | some t => some ([], t)
    | none => readSomeArgs fuel t

/-- Reads one or more arguments to the closing bracket. -/
def readSomeArgs : Nat → Text → Option (List Expr × Text)
  | 0, _ => none
  | fuel + 1, t => do
    let (arg, t) ← readExpr fuel t
    match after? ", " t with
    | some t => do
      let (args, t) ← readSomeArgs fuel t
      return (arg :: args, t)
    | none => do
      let t ← after? ")" t
      return ([arg], t)

/-- Reads an expression without the calls behind it. In brackets stands a binary operation, or an
expression as it is. -/
def readHead : Nat → Text → Option (Expr × Text)
  | 0, _ => none
  | fuel + 1, t =>
    match after? "(" t with
    | some t => do
      let (left, t) ← readExpr fuel t
      match after? ")" t with
      -- What stands in brackets by itself is a function that is called.
      | some t => return (left, t)
      | none => do
        let (op, t) ← readOp t
        let (right, t) ← readExpr fuel t
        let t ← after? ")" t
        return (.binop op left right, t)
    | none => readWord fuel (takeWord t).1 (takeWord t).2

/-- Reads an expression that starts with a word. -/
def readWord : Nat → Text → Text → Option (Expr × Text)
  | 0, _, _ => none
  | fuel + 1, word, t =>
    match word.toString? with
    | some "true" => some (.literal (.bool true), t)
    | some "false" => some (.literal (.bool false), t)
    | some "null" => some (.literal .null, t)
    | some "print" => do
      let t ← after? "(" t
      let (arg, t) ← readExpr fuel t
      let t ← after? ")" t
      return (.print arg, t)
    | some "if" => do
      let t ← after? " (" t
      let (test, t) ← readExpr fuel t
      let t ← after? ") " t
      let (thn, t) ← readBlock fuel t
      match after? " else " t with
      | none => return (.cond test thn none, t)
      | some t => do
        let (els, t) ← readBlock fuel t
        return (.cond test thn els, t)
    | some "while" => do
      let t ← after? " (" t
      let (test, t) ← readExpr fuel t
      let t ← after? ") " t
      let (body, t) ← readBlock fuel t
      return (.loop test body, t)
    | some "function" => do
      -- Parameters are read like arguments, and must be names then.
      let t ← after? "(" t
      let (params, t) ← readArgs fuel t
      let names ← params.mapM name?
      let t ← after? " " t
      let (body, t) ← readBlock fuel t
      return (.func names body, t)
    | some "var" => do
      let t ← after? " " t
      let (name, t) := takeWord t
      let t ← after? " = " t
      let (init, t) ← readExpr fuel t
      return (.decl name init, t)
    | _ =>
      if startsName word then
        match after? " = " t with
        | none => some (.var word, t)
        | some t => do
          let (rhs, t) ← readExpr fuel t
          return (.assign word rhs, t)
      else do
        let n ← number? word
        return (.literal (.int n), t)

/-- Reads a block. -/
def readBlock : Nat → Text → Option (Option Expr × Text)
  | 0, _ => none
  | fuel + 1, t =>
    match after? "\x7b\x7d" t with
    | some t => some (none, t)
    | none => do
      let t ← after? "\x7b\n" t
      let (body, t) ← readStatements fuel none (skipSpaces t)
      let t ← after? "\x7d" t
      return (some body, t)

/-- Reads one or more statements behind those that are already read. -/
def readStatements : Nat → Option Expr → Text → Option (Expr × Text)
  | 0, _, _ => none
  | fuel + 1, before, t => do
    let (statement, t) ← readExpr fuel t
    readMore fuel (behind before statement) t

/-- Reads the statements that follow on new lines, to the end of the block. -/
def readMore : Nat → Expr → Text → Option (Expr × Text)
  | 0, _, _ => none
  | fuel + 1, before, t =>
    match after? ";\n" t with
    | none => some (before, t)
    | some t =>
      match after? "\x7d" (skipSpaces t) with
      -- The brace is left for the block that it closes.
      | some _ => some (before, skipSpaces t)
      | none => readStatements fuel (some before) (skipSpaces t)

end

/-! ## Fuel that suffices -/

/-- Whether something holds whenever there is enough fuel. -/
def WithFuel (P : Nat → Prop) : Prop := ∃ least, ∀ fuel ≥ least, P fuel

theorem WithFuel.and {P Q : Nat → Prop} (h : WithFuel P) (h' : WithFuel Q) :
    WithFuel fun fuel => P fuel ∧ Q fuel := by
  obtain ⟨n, h⟩ := h
  obtain ⟨n', h'⟩ := h'
  exact ⟨max n n', fun fuel hle => ⟨h fuel (by omega), h' fuel (by omega)⟩⟩

/-- Whether a reader gives a result whenever it has enough fuel. -/
def Gives {α : Type} (reader : Nat → Option α) (result : α) : Prop :=
  WithFuel fun fuel => reader fuel = some result

namespace Gives

variable {α : Type} {reader : Nat → Option α} {a b : α}

theorem holds (h : Gives reader a) : WithFuel fun fuel => reader fuel = some a := h

/-- A call around others. -/
theorem of_calls {P : Nat → Prop} (h : WithFuel P)
    (hcall : ∀ fuel, P fuel → reader (fuel + 1) = some a) : Gives reader a := by
  obtain ⟨n, h⟩ := h
  refine ⟨n + 1, fun fuel hle => ?_⟩
  obtain ⟨fuel, rfl⟩ : ∃ k, fuel = k + 1 := Nat.exists_eq_add_one.mpr (by omega)
  exact hcall fuel (h fuel (by omega))

/-- A call without others in it. -/
theorem of_call (h : ∀ fuel, reader (fuel + 1) = some a) : Gives reader a :=
  of_calls (P := fun _ => True) ⟨0, fun _ _ => trivial⟩ fun fuel _ => h fuel

/-- A reader gives no two results. -/
theorem unique (ha : Gives reader a) (hb : Gives reader b) : a = b := by
  obtain ⟨n, h⟩ := ha.holds.and hb.holds
  obtain ⟨ha, hb⟩ := h n (Nat.le_refl n)
  exact Option.some.inj (ha.symm.trans hb)

end Gives

end Treewalk.Source
