import Treewalk.Proofs.Tree.Operators

/-!
# The grammar of tree documents

`Denotes d e?` says that the document `d` derives in the grammar of trees, and that the derivation
denotes the expression `e?`, or nothing where the document is empty. The decoder accepts exactly the
documents that derive, and gives what the derivation denotes (`decode_iff_denotes`).

Null means something else in each place: a literal as a whole document and as an argument, nothing
as a statement, an absence as a required child, and an empty block as a branch.
-/

namespace Treewalk.Tree

open Document

/-! ## Fields -/

/-- The tag of a record. A tag that is null is the tag of the null literal. -/
inductive HasTag (entries : List (Document × Document)) : String → Prop where
  | text {tag} : field? "tag" entries = some (.text (.ofString tag)) → HasTag entries tag
  | null : field? "tag" entries = some .null → HasTag entries "null"

theorem HasTag.field?_ne_none {entries : List (Document × Document)} {tag : String}
    (h : HasTag entries tag) : field? "tag" entries ≠ none := by
  cases h with
  | text h | null h =>
    rw [h]
    exact Option.some_ne_none _

/-- A record has one tag at most. -/
theorem HasTag.unique {entries : List (Document × Document)} {tag tag' : String}
    (h : HasTag entries tag) (h' : HasTag entries tag') : tag = tag' := by
  cases h with
  | text h =>
    cases h' with
    | text h' => simpa [Text.ofString_inj] using h.symm.trans h'
    | null h' => cases h.symm.trans h'
  | null h =>
    cases h' with
    | text h' => cases h.symm.trans h'
    | null h' => rfl

/-- The items in a field that may be absent or null. -/
inductive ListField (entries : List (Document × Document)) (field : Text) :
    List Document → Prop where
  | absent : field? field entries = none → ListField entries field []
  | null : field? field entries = some .null → ListField entries field []
  | list {items} : field? field entries = some (.list items) → ListField entries field items

/-- The name in a field of a record. -/
def NameField (entries : List (Document × Document)) (name : Text) : Prop :=
  field? "name" entries = some (.text name) ∧ name ≠ []

/-- The names in a list. -/
def Names (items : List Document) (names : List Text) : Prop :=
  items = names.map .text ∧ ∀ name ∈ names, name ≠ []

/-! ## Documents -/

mutual

/-- What a document denotes. -/
inductive Denotes : Document → Option Expr → Prop where
  | null : Denotes .null (some (.literal .null))
  | bool (b : Bool) : Denotes (.bool b) (some (.literal (.bool b)))
  | int {n : Int} : Value.intMin ≤ n ∧ n ≤ Value.intMax →
    Denotes (.int n) (some (.literal (.int n)))
  | list {items es} : Statements items es → Denotes (.list items) (Expr.ofStatements? es)
  | intNode {entries n} : HasTag entries "int" → field? "value" entries = some (.int n) →
    Value.intMin ≤ n ∧ n ≤ Value.intMax → Denotes (.map entries) (some (.literal (.int n)))
  | boolNode {entries b} : HasTag entries "bool" → field? "value" entries = some (.bool b) →
    Denotes (.map entries) (some (.literal (.bool b)))
  | nullNode {entries} : HasTag entries "null" → Denotes (.map entries) (some (.literal .null))
  | block {entries tag items es} : HasTag entries tag → tag = "block" ∨ tag = "program" →
    ListField entries "body" items → Statements items es →
    Denotes (.map entries) (Expr.ofStatements? es)
  | seq {entries first second} : HasTag entries "seq" → Child entries "first" first →
    Child entries "second" second → Denotes (.map entries) (some (.seq first second))
  | var {entries name} : HasTag entries "var" → NameField entries name →
    Denotes (.map entries) (some (.var name))
  | decl {entries name init} : HasTag entries "vardecl" → NameField entries name →
    Child entries "expr" init → Denotes (.map entries) (some (.decl name init))
  | assign {entries name rhs} : HasTag entries "assign" → NameField entries name →
    Child entries "expr" rhs → Denotes (.map entries) (some (.assign name rhs))
  | binop {entries s op left right} : HasTag entries "binop" →
    field? "op" entries = some (.text (.ofString s)) → Op.Named s op →
    Child entries "left" left → Child entries "right" right →
    Denotes (.map entries) (some (.binop op left right))
  | cond {entries test thn els} : HasTag entries "if" → field? "then" entries ≠ none →
    Child entries "cond" test → Branch entries "then" thn →
    Branch entries "else" els → Denotes (.map entries) (some (.cond test thn els))
  | loop {entries test body} : HasTag entries "while" → field? "body" entries ≠ none →
    Child entries "cond" test → Branch entries "body" body →
    Denotes (.map entries) (some (.loop test body))
  | print {entries arg} : HasTag entries "print" → Child entries "expr" arg →
    Denotes (.map entries) (some (.print arg))
  | func {entries items params body} : HasTag entries "function" →
    ListField entries "params" items → Names items params → Branch entries "body" body →
    Denotes (.map entries) (some (.func params body))
  | call {entries callee items args} : HasTag entries "call" → ListField entries "args" items →
    Arguments items args → Child entries "func" callee →
    Denotes (.map entries) (some (.call callee args))

/-- The statements of a list: nulls and empty statements are dropped. -/
inductive Statements : List Document → List Expr → Prop where
  | nil : Statements [] []
  | null {ds es} : Statements ds es → Statements (.null :: ds) es
  | empty {d ds es} : d ≠ .null → Denotes d none → Statements ds es → Statements (d :: ds) es
  | cons {d e ds es} : d ≠ .null → Denotes d (some e) → Statements ds es →
    Statements (d :: ds) (e :: es)

/-- The arguments of a call: none of them is empty. -/
inductive Arguments : List Document → List Expr → Prop where
  | nil : Arguments [] []
  | cons {d e ds es} : Denotes d (some e) → Arguments ds es → Arguments (d :: ds) (e :: es)

/-- A child that has to be there, and is neither null nor empty. -/
inductive Child : List (Document × Document) → Text → Expr → Prop where
  | mk {entries field d e} : field? field entries = some d → d ≠ .null → Denotes d (some e) →
    Child entries field e

/-- A child that may be absent, null or empty. -/
inductive Branch : List (Document × Document) → Text → Option Expr → Prop where
  | absent {entries field} : field? field entries = none → Branch entries field none
  | null {entries field} : field? field entries = some .null → Branch entries field none
  | child {entries field d b} : field? field entries = some d → d ≠ .null → Denotes d b →
    Branch entries field b

end

/-- A record that denotes something has a tag. -/
theorem Denotes.hasTag {entries : List (Document × Document)} {e? : Option Expr}
    (h : Denotes (.map entries) e?) : ∃ tag, HasTag entries tag := by
  cases h <;> exact ⟨_, ‹_›⟩

end Treewalk.Tree
