import Mathlib.Data.List.Forall2
import Treewalk.Proofs.Syntax.WellFormed
import Treewalk.Proofs.Tree.Readers
import Treewalk.Tree.Encode

/-!
# Expressions survive encoding and decoding

The document of a well-formed expression exists and decodes to that expression, at every depth that
is not below the levels of nesting of the document (`exists_encode`).

The encoder writes a chain as one flat list of documents, and the decoder folds such a list again.
So the statement that goes through by induction on the expression is about a list of documents: one
for each statement of the expression (`exists_encodeParts`). A document of its own is made from the
list by `joinParts` (`encodes_joinParts`), where a chain needs two levels more than its statements:
the record of the block and the list in it.
-/

namespace Treewalk

/-! ## Levels of nesting -/

mutual

/-- The levels of nesting of the document of an expression, where a chain counts `chain` levels
beside those of its statements. -/
def Expr.levelsAt (chain : Nat) : Expr → Nat
  | .literal _ | .var _ => 1
  | .print arg | .decl _ arg | .assign _ arg => arg.levelsAt 2 + 1
  | .binop _ left right => max (left.levelsAt 2) (right.levelsAt 2) + 1
  | .cond test thn els =>
    max (test.levelsAt 2) (max (Expr.blockLevels thn) (Expr.blockLevels els)) + 1
  | .loop test body => max (test.levelsAt 2) (Expr.blockLevels body) + 1
  | .seq first second => max (first.levelsAt 0) (second.levelsAt 2) + chain
  | .func _ body => Expr.blockLevels body + 1
  | .call callee args => max (callee.levelsAt 2) (Expr.argLevels args) + 1

/-- The levels of nesting of the document of a block. -/
def Expr.blockLevels : Option Expr → Nat
  | none => 0
  | some body => body.levelsAt 2

/-- The levels of nesting of the documents of arguments. -/
def Expr.argLevels : List Expr → Nat
  | [] => 0
  | arg :: args => max (arg.levelsAt 2) (Expr.argLevels args)

end

/-- The levels of nesting of the document of an expression. -/
def Expr.levels (e : Expr) : Nat := e.levelsAt 2

namespace Expr

/-- Every document has a level. -/
theorem levels_pos (e : Expr) : 0 < e.levels := by
  cases e <;> simp [levels, levelsAt]

/-- A single statement has the levels of its document, whatever a chain counts. -/
theorem levelsAt_of_single {e : Expr} (h : e.statements = [e]) (chain : Nat) :
    e.levelsAt chain = e.levels := by
  cases e with
  | seq first second =>
    obtain ⟨s, ss, hs⟩ := first.exists_statements_eq_cons
    rw [statements_seq, hs] at h
    simp at h
  | _ => rfl

/-- A chain is nested as deeply as the deepest of its statements. -/
theorem levels_le_of_mem_statements {e s : Expr} (h : s ∈ e.statements) :
    s.levels ≤ e.levelsAt 0 := by
  induction e using chainRec with
  | single e he =>
    rw [he, List.mem_singleton] at h
    subst h
    exact Nat.le_of_eq (levelsAt_of_single he 0).symm
  | seq first second ih =>
    rw [statements_seq, List.mem_append, List.mem_singleton] at h
    rcases h with h | rfl
    · exact Nat.le_trans (ih h) (Nat.le_max_left _ _)
    · exact Nat.le_max_right _ _

end Expr

namespace Tree

open Document

variable {table : Array Document}

/-! ## Reading records -/

/-- The entries of a record with the given fields. -/
def entriesOf (fields : List (String × Document)) : List (Document × Document) :=
  fields.map fun f => (text (.ofString f.1), f.2)

theorem field?_entriesOf (field : String) (fields : List (String × Document)) :
    field? field (entriesOf fields) = fields.lookup field := field?_record field fields

/-- A record is read by its tag. -/
theorem decodeAt_record (depth : Nat) (tag : String) (fields : List (String × Document)) :
    decodeAt table (depth + 1) (record (("tag", text tag) :: fields)) =
      tagged table (decodeAt table depth) (entriesOf (("tag", text tag) :: fields)) tag := by
  have h : field? "tag" (entriesOf (("tag", text tag) :: fields)) = some (text tag) := by
    rw [field?_entriesOf, List.lookup_cons_self]
  unfold entriesOf at h
  simp only [decodeAt, record, Data.follow, h, Text.toString?_ofString, entriesOf]

variable {fields : List (String × Document)} {field : String} {child : Document → Decoded}
  {d : Document}

/-- A required field that is there and is not null. -/
theorem required_eq_ok {tag : String} (hn : d ≠ .null) (hf : fields.lookup field = some d) :
    required tag (entriesOf fields) field = .ok d :=
  required_eq_ok_iff.mpr ⟨(field?_entriesOf field fields).trans hf, hn⟩

/-- A required name that is there and is not empty. -/
theorem requiredName_eq_ok {tag : String} {name : Text} (hn : name ≠ [])
    (hf : fields.lookup "name" = some (text name)) :
    requiredName tag (entriesOf fields) = .ok name :=
  requiredName_eq_ok_iff.mpr ⟨(field?_entriesOf "name" fields).trans hf, hn⟩

/-- A child that may be empty, null for the empty one. -/
theorem block_eq_ok {b : Option Expr} (hf : fields.lookup field = some d)
    (h : d = .null ∧ b = none ∨ d ≠ .null ∧ child d = .ok b) :
    block child (entriesOf fields) field = .ok b := by
  have hfield := (field?_entriesOf field fields).trans hf
  rcases h with ⟨rfl, rfl⟩ | ⟨hn, hread⟩
  · exact block_eq_ok_iff.mpr (.inr (.inl ⟨hfield, rfl⟩))
  · exact block_eq_ok_iff.mpr (.inr (.inr ⟨d, ⟨hfield, hn⟩, hread⟩))

/-- A child that may be empty and is absent. -/
theorem block_eq_none (hf : fields.lookup field = none) :
    block child (entriesOf fields) field = .ok none :=
  block_eq_ok_iff.mpr (.inl ⟨(field?_entriesOf field fields).trans hf, rfl⟩)

/-- A list field that holds a list. -/
theorem listField_eq_ok (items : List Document) {fault : TreeFault}
    (hf : fields.lookup field = some (list items)) :
    listField table fault (entriesOf fields) field = .ok items :=
  listField_of_follow ((field?_entriesOf field fields).trans hf) rfl

/-! ## Documents of expressions -/

/-- Whether a document is read as an expression wherever there are levels enough. -/
def Encodes (d : Document) (e : Expr) : Prop :=
  d ≠ .null ∧ ∀ table depth, e.levels ≤ depth → decodeAt table depth d = .ok (some e)

/-- Whether a document is read as a block wherever there are levels enough. -/
def EncodesBlock (d : Document) (b : Option Expr) : Prop :=
  ∀ table depth, Expr.blockLevels b ≤ depth →
    d = .null ∧ b = none ∨ d ≠ .null ∧ decodeAt table depth d = .ok b

/-- Documents of statements are read as the statements. -/
theorem statements_eq_ok {ds : List Document} {es : List Expr} (h : List.Forall₂ Encodes ds es)
    {depth : Nat} (hl : ∀ e ∈ es, e.levels ≤ depth) :
    statements (decodeAt table depth) ds = .ok es := by
  induction h with
  | nil => rfl
  | @cons d e ds es hd hds ih =>
    obtain ⟨he, hes⟩ := List.forall_mem_cons.mp hl
    -- `Encodes` excludes null, which the reader of statements would drop.
    exact (statements_cons_eq_ok_iff hd.1).mpr ⟨some e, es, hd.2 table depth he, ih hes, rfl⟩

/-- Documents of arguments are read as the arguments. -/
theorem arguments_eq_ok {ds : List Document} {args : List Expr}
    (h : List.Forall₂ Encodes ds args) {depth : Nat} (hl : Expr.argLevels args ≤ depth) :
    arguments (decodeAt table depth) ds = .ok args := by
  induction h with
  | nil => rfl
  | @cons d arg ds args hd hds ih =>
    obtain ⟨harg, hargs⟩ := Nat.max_le.mp hl
    exact arguments_cons_eq_ok_iff.mpr ⟨arg, args, hd.2 table depth harg, ih hargs, rfl⟩

/-- A record is a document of what its tag makes of its fields. -/
theorem encodes_record {tag : String} {e : Expr}
    (h : ∀ table depth, e.levels ≤ depth + 1 →
      ReadsAs table (decodeAt table depth) (entriesOf (("tag", text tag) :: fields)) tag (some e)) :
    Encodes (record (("tag", text tag) :: fields)) e := by
  refine ⟨by simp [record], fun table depth hd => ?_⟩
  obtain ⟨depth, rfl⟩ : ∃ n, depth = n + 1 :=
    Nat.exists_eq_succ_of_ne_zero (by have := e.levels_pos; omega)
  rw [decodeAt_record]
  exact (h table depth hd).tagged

/-- The documents of the statements of an expression make up a document of the expression. -/
theorem encodes_joinParts {ds : List Document} {e : Expr}
    (h : List.Forall₂ Encodes ds e.statements) : Encodes (joinParts ds) e := by
  cases e with
  | seq first second =>
    obtain ⟨s, ss, hs⟩ := first.exists_statements_eq_cons
    have hj : joinParts ds = record [("tag", text "block"), ("body", list ds)] := by
      have hlen := h.length_eq
      rw [Expr.statements_seq, hs] at hlen
      rcases ds with _ | ⟨d, _ | ⟨d', ds⟩⟩
      · simp at hlen
      · simp at hlen
      · rfl
    rw [hj]
    refine encodes_record fun table depth hd => ?_
    have hd : (Expr.seq first second).levelsAt 0 + 1 ≤ depth := by
      simp only [Expr.levels, Expr.levelsAt] at hd ⊢
      omega
    -- One level is the record, and the next one is the list in it.
    obtain ⟨depth, rfl⟩ : ∃ n, depth = n + 1 := Nat.exists_eq_succ_of_ne_zero (by omega)
    have hss : statements (decodeAt table depth) ds = .ok (Expr.seq first second).statements :=
      statements_eq_ok h fun s hs => Nat.le_trans (Expr.levels_le_of_mem_statements hs) (by omega)
    exact .block (.inl rfl) (listField_eq_ok ds rfl) (bind_eq_ok.mpr ⟨_, hss,
      congrArg Except.ok (Expr.ofStatements?_statements _)⟩)
  | _ =>
    cases h with
    | cons hd hds =>
      cases hds
      exact hd

/-- A child that has been encoded is read where there are levels enough for it. -/
theorem Encodes.requiredExpr_eq_ok {e : Expr} (hd : Encodes d e) {depth : Nat}
    (hl : e.levels ≤ depth) {tag : String} (hf : fields.lookup field = some d) :
    requiredExpr (decodeAt table depth) tag (entriesOf fields) field = .ok e :=
  requiredExpr_eq_ok_iff.mpr
    ⟨d, ⟨(field?_entriesOf field fields).trans hf, hd.1⟩, hd.2 table depth hl⟩

/-- A block that has been encoded is read where there are levels enough for it. -/
theorem EncodesBlock.block_eq_ok {b : Option Expr} (hd : EncodesBlock d b) {depth : Nat}
    (hl : Expr.blockLevels b ≤ depth) (hf : fields.lookup field = some d) :
    block (decodeAt table depth) (entriesOf fields) field = .ok b :=
  Tree.block_eq_ok hf (hd table depth hl)

/-! ## One record for each kind of node -/

theorem encodes_int {n : Int} (hn : Value.intMin ≤ n ∧ n ≤ Value.intMax) :
    Encodes (record [("tag", text "int"), ("value", int n)]) (.literal (.int n)) :=
  encodes_record fun _ _ _ =>
    .int (required_eq_ok (by simp) rfl) (intLiteral_eq_ok_iff.mpr ⟨n, rfl, hn, rfl⟩)

theorem encodes_bool (b : Bool) :
    Encodes (record [("tag", text "bool"), ("value", .bool b)]) (.literal (.bool b)) :=
  encodes_record fun _ _ _ => .bool (required_eq_ok (by simp) rfl)

theorem encodes_null : Encodes (record [("tag", text "null")]) (.literal .null) :=
  encodes_record fun _ _ _ => .null

theorem encodes_var {name : Text} (hn : name ≠ []) :
    Encodes (record [("tag", text "var"), ("name", text name)]) (.var name) :=
  encodes_record fun _ _ _ => .var (requiredName_eq_ok hn rfl)

theorem encodes_print {e : Expr} (hd : Encodes d e) :
    Encodes (record [("tag", text "print"), ("expr", d)]) (.print e) := by
  refine encodes_record fun table depth hl => ?_
  have he : e.levels ≤ depth := Nat.le_of_succ_le_succ hl
  exact .print (hd.requiredExpr_eq_ok he rfl)

theorem encodes_binop (op : Op) {l r : Document} {left right : Expr} (hl : Encodes l left)
    (hr : Encodes r right) :
    Encodes (record [("tag", text "binop"), ("op", text (.ofString op.symbol)), ("left", l),
      ("right", r)]) (.binop op left right) := by
  refine encodes_record fun table depth hle => ?_
  obtain ⟨hleft, hright⟩ := Nat.max_le.mp (Nat.le_of_succ_le_succ hle)
  have hop : (text (.ofString op.symbol)).asText.toString?.bind Op.lookup? = some op := by
    rw [asText, Text.toString?_ofString]
    exact Op.lookup?_symbol op
  exact .binop (required_eq_ok (by simp) rfl) hop (hl.requiredExpr_eq_ok hleft rfl)
    (hr.requiredExpr_eq_ok hright rfl)

theorem encodes_cond {c t : Document} {test : Expr} {thn els : Option Expr}
    {els? : List (String × Document)} (hc : Encodes c test) (ht : EncodesBlock t thn)
    (he : els? = [] ∧ els = none ∨ ∃ d, els? = [("else", d)] ∧ EncodesBlock d els) :
    Encodes (record (("tag", text "if") :: ("cond", c) :: ("then", t) :: els?))
      (.cond test thn els) := by
  refine encodes_record fun table depth hl => ?_
  obtain ⟨htest, hblocks⟩ := Nat.max_le.mp (Nat.le_of_succ_le_succ hl)
  obtain ⟨hthn, hels⟩ := Nat.max_le.mp hblocks
  have hthen : field? "then"
      (entriesOf (("tag", text "if") :: ("cond", c) :: ("then", t) :: els?)) = some t :=
    field?_entriesOf "then" _
  -- A missing branch has no field, so this field alone is not always in the record.
  have helse : block (decodeAt table depth)
      (entriesOf (("tag", text "if") :: ("cond", c) :: ("then", t) :: els?)) "else" = .ok els := by
    rcases he with ⟨rfl, rfl⟩ | ⟨d, rfl, hd⟩
    · exact block_eq_none rfl
    · exact hd.block_eq_ok hels rfl
  exact .cond (by simp [hthen]) (hc.requiredExpr_eq_ok htest rfl) (ht.block_eq_ok hthn rfl) helse

theorem encodes_loop {c b : Document} {test : Expr} {body : Option Expr} (hc : Encodes c test)
    (hb : EncodesBlock b body) :
    Encodes (record [("tag", text "while"), ("cond", c), ("body", b)]) (.loop test body) := by
  refine encodes_record fun table depth hl => ?_
  obtain ⟨htest, hbody⟩ := Nat.max_le.mp (Nat.le_of_succ_le_succ hl)
  have hf : field? "body" (entriesOf [("tag", text "while"), ("cond", c), ("body", b)]) = some b :=
    field?_entriesOf "body" _
  exact .loop (by simp [hf]) (hc.requiredExpr_eq_ok htest rfl) (hb.block_eq_ok hbody rfl)

theorem encodes_decl {name : Text} {e : Expr} (hn : name ≠ []) (hd : Encodes d e) :
    Encodes (record [("tag", text "vardecl"), ("name", text name), ("expr", d)])
      (.decl name e) := by
  refine encodes_record fun table depth hl => ?_
  have he : e.levels ≤ depth := Nat.le_of_succ_le_succ hl
  exact .decl (requiredName_eq_ok hn rfl) (hd.requiredExpr_eq_ok he rfl)

theorem encodes_assign {name : Text} {e : Expr} (hn : name ≠ []) (hd : Encodes d e) :
    Encodes (record [("tag", text "assign"), ("name", text name), ("expr", d)])
      (.assign name e) := by
  refine encodes_record fun table depth hl => ?_
  have he : e.levels ≤ depth := Nat.le_of_succ_le_succ hl
  exact .assign (requiredName_eq_ok hn rfl) (hd.requiredExpr_eq_ok he rfl)

theorem encodes_func {params : List Text} {b : Document} {body : Option Expr}
    (hp : ∀ p ∈ params, p ≠ []) (hb : EncodesBlock b body) :
    Encodes (record [("tag", text "function"), ("params", list (params.map text)), ("body", b)])
      (.func params body) := by
  refine encodes_record fun table depth hl => ?_
  have hbody : Expr.blockLevels body ≤ depth := Nat.le_of_succ_le_succ hl
  exact .func (listField_eq_ok _ rfl) (paramNames_eq_ok_iff.mpr ⟨rfl, hp⟩)
    (hb.block_eq_ok hbody rfl)

theorem encodes_call {f : Document} {as : List Document} {callee : Expr} {args : List Expr}
    (hf : Encodes f callee) (has : List.Forall₂ Encodes as args) :
    Encodes (record [("tag", text "call"), ("func", f), ("args", list as)])
      (.call callee args) := by
  refine encodes_record fun table depth hl => ?_
  obtain ⟨hcallee, hargs⟩ := Nat.max_le.mp (Nat.le_of_succ_le_succ hl)
  exact .call (listField_eq_ok as rfl) (arguments_eq_ok has hargs)
    (hf.requiredExpr_eq_ok hcallee rfl)

/-! ## All expressions -/

mutual

/-- The statements of a well-formed expression have documents. -/
theorem exists_encodeParts : ∀ e : Expr, e.WellFormed →
    ∃ ds, encodeParts e = .ok ds ∧ List.Forall₂ Encodes ds e.statements
  | .literal (.int n), h => ⟨_, rfl, .cons (encodes_int h.self) .nil⟩
  | .literal (.bool b), _ => ⟨_, rfl, .cons (encodes_bool b) .nil⟩
  | .literal .null, _ => ⟨_, rfl, .cons encodes_null .nil⟩
  | .literal (.closure ..), h => absurd h.self id
  | .var name, h => ⟨_, rfl, .cons (encodes_var h.self) .nil⟩
  | .print arg, h => by
    obtain ⟨ds, hds, hs⟩ := exists_encodeParts arg h.2
    exact ⟨_, by simp only [encodeParts, hds]; rfl,
      .cons (encodes_print (encodes_joinParts hs)) .nil⟩
  | .binop op left right, h => by
    obtain ⟨ls, hls, hl⟩ := exists_encodeParts left h.2.1
    obtain ⟨rs, hrs, hr⟩ := exists_encodeParts right h.2.2
    exact ⟨_, by simp only [encodeParts, hls, hrs]; rfl,
      .cons (encodes_binop op (encodes_joinParts hl) (encodes_joinParts hr)) .nil⟩
  | .cond test thn els, h => by
    obtain ⟨cs, hcs, hc⟩ := exists_encodeParts test h.2.1
    obtain ⟨t, ht, hthn⟩ := exists_encodeBlock thn h.2.2.1
    obtain ⟨es, hes, hels⟩ := exists_encodeElse els h.2.2.2
    exact ⟨_, by simp only [encodeParts, hcs, ht, hes]; rfl,
      .cons (encodes_cond (encodes_joinParts hc) hthn hels) .nil⟩
  | .loop test body, h => by
    obtain ⟨cs, hcs, hc⟩ := exists_encodeParts test h.2.1
    obtain ⟨b, hb, hbody⟩ := exists_encodeBlock body h.2.2
    exact ⟨_, by simp only [encodeParts, hcs, hb]; rfl,
      .cons (encodes_loop (encodes_joinParts hc) hbody) .nil⟩
  | .seq first second, h => by
    obtain ⟨ds, hds, hfirst⟩ := exists_encodeParts first h.2.1
    obtain ⟨es, hes, hsecond⟩ := exists_encodeParts second h.2.2
    refine ⟨_, by simp only [encodeParts, hds, hes]; rfl, ?_⟩
    rw [Expr.statements_seq]
    exact List.rel_append hfirst (.cons (encodes_joinParts hsecond) .nil)
  | .decl name init, h => by
    obtain ⟨ds, hds, hs⟩ := exists_encodeParts init h.2
    exact ⟨_, by simp only [encodeParts, hds]; rfl,
      .cons (encodes_decl h.self (encodes_joinParts hs)) .nil⟩
  | .assign name rhs, h => by
    obtain ⟨ds, hds, hs⟩ := exists_encodeParts rhs h.2
    exact ⟨_, by simp only [encodeParts, hds]; rfl,
      .cons (encodes_assign h.self (encodes_joinParts hs)) .nil⟩
  | .func params body, h => by
    obtain ⟨b, hb, hbody⟩ := exists_encodeBlock body h.2
    exact ⟨_, by simp only [encodeParts, hb]; rfl, .cons (encodes_func h.self hbody) .nil⟩
  | .call callee args, h => by
    obtain ⟨fs, hfs, hf⟩ := exists_encodeParts callee h.2.1
    obtain ⟨as, has, hargs⟩ := exists_encodeArgs args h.2.2
    exact ⟨_, by simp only [encodeParts, hfs, has]; rfl,
      .cons (encodes_call (encodes_joinParts hf) hargs) .nil⟩

/-- A block of well-formed expressions has a document. -/
theorem exists_encodeBlock : ∀ b : Option Expr, Expr.EverywhereBlock Expr.NodeOk b →
    ∃ d, encodeBlock b = .ok d ∧ EncodesBlock d b
  | none, _ => ⟨_, rfl, fun _ _ _ => .inl ⟨rfl, rfl⟩⟩
  | some body, h => by
    obtain ⟨ds, hds, hs⟩ := exists_encodeParts body h
    have hd := encodes_joinParts hs
    exact ⟨_, by simp only [encodeBlock, hds]; rfl,
      fun table depth hl => .inr ⟨hd.1, hd.2 table depth hl⟩⟩

/-- A branch of well-formed expressions has a field, unless it is missing. -/
theorem exists_encodeElse : ∀ b : Option Expr, Expr.EverywhereBlock Expr.NodeOk b →
    ∃ fs, encodeElse b = .ok fs ∧
      (fs = [] ∧ b = none ∨ ∃ d, fs = [("else", d)] ∧ EncodesBlock d b)
  | none, _ => ⟨_, rfl, .inl ⟨rfl, rfl⟩⟩
  | some body, h => by
    obtain ⟨ds, hds, hs⟩ := exists_encodeParts body h
    have hd := encodes_joinParts hs
    exact ⟨_, by simp only [encodeElse, hds]; rfl,
      .inr ⟨_, rfl, fun table depth hl => .inr ⟨hd.1, hd.2 table depth hl⟩⟩⟩

/-- Well-formed arguments have documents. -/
theorem exists_encodeArgs : ∀ args : List Expr, Expr.EverywhereArgs Expr.NodeOk args →
    ∃ ds, encodeArgs args = .ok ds ∧ List.Forall₂ Encodes ds args
  | [], _ => ⟨_, rfl, .nil⟩
  | arg :: args, h => by
    obtain ⟨ds, hds, hs⟩ := exists_encodeParts arg h.1
    obtain ⟨es, hes, hargs⟩ := exists_encodeArgs args h.2
    exact ⟨_, by simp only [encodeArgs, hds, hes]; rfl, .cons (encodes_joinParts hs) hargs⟩

end

/-- **A well-formed expression has a document, and the document is read as the expression.** -/
theorem exists_encode {e : Expr} (h : e.WellFormed) : ∃ d, encode e = .ok d ∧ Encodes d e := by
  obtain ⟨ds, hds, hs⟩ := exists_encodeParts e h
  exact ⟨_, by simp only [encode, hds]; rfl, encodes_joinParts hs⟩

end Tree

end Treewalk
