import Treewalk.Proofs.Yaml.Nodes
import Treewalk.Proofs.Yaml.Numerals
import Treewalk.Proofs.Syntax.WellFormed
import Treewalk.Tree.Encode

/-!
# Outlines of expressions

The documents of well-formed expressions are plain ones (`IsPlain`): their keys are key words, their
integers have few digits, and their lists hold no lists. A plain document has an ordinary outline
that denotes it, in both ways of setting brackets.
-/

namespace Treewalk.Yaml

open Text Number Outline

/-! ## Plain documents -/

mutual

/-- Whether a document has the form of those of expressions. -/
def IsPlain : Document → Prop
  | .null | .bool _ | .text _ => True
  | .int n => hasFewDigits n = true
  | .list items => ArePlain items
  | .map entries => HasTextKeys entries ∧ HavePlainValues entries
  | _ => False

/-- Whether the items of a list are plain and no lists. -/
def ArePlain : List Document → Prop
  | [] => True
  | d :: ds => (∀ items, d ≠ .list items) ∧ IsPlain d ∧ ArePlain ds

/-- Whether entries have key words as keys, and plain values. -/
def HavePlainValues : List (Document × Document) → Prop
  | [] => True
  | (key, value) :: rest =>
    (∃ w, IsKeyWord w ∧ key = .text (ofChars w)) ∧ IsPlain value ∧ HavePlainValues rest

end

/-! ## Scalars -/

/-- A scalar whose tag is told by its text. -/
theorem ordinary_of_allows {w : List Char} {tag : Tag} {d : Document}
    (hw : w ≠ [] ∧ tag ≠ .binary ∧ Tag.ofChars w = tag ∧ allowsPlain true w = true ∧
      allowsPlain false w = true)
    (hd : isScalar d = true) (hvalue : ∀ mark, scalarValue mark tag (ofChars w) = .ok d) :
    (Outline.scalar tag (ofChars w)).Ordinary ∧ (Outline.scalar tag (ofChars w)).Denotes d :=
  ⟨.inr ⟨w, rfl, hw⟩, hd, hvalue⟩

theorem ordinary_null : (Outline.scalar .null "null").Ordinary ∧
    (Outline.scalar .null "null").Denotes .null :=
  ordinary_of_allows (by decide) rfl fun _ => rfl

theorem ordinary_bool (b : Bool) :
    (Outline.scalar .bool (if b then "true" else "false")).Ordinary ∧
      (Outline.scalar .bool (if b then "true" else "false")).Denotes (.bool b) := by
  cases b with
  | true => exact ordinary_of_allows (by decide) rfl fun _ => rfl
  | false => exact ordinary_of_allows (by decide) rfl fun _ => rfl

theorem ordinary_int {n : Int} (h : hasFewDigits n = true) :
    (Outline.scalar .int (ofChars (renderInt n))).Ordinary ∧
      (Outline.scalar .int (ofChars (renderInt n))).Denotes (.int n) := by
  have hne : renderInt n ≠ [] := by
    obtain ⟨x, tail, heq, -⟩ := exists_cons_numeral (isNumeral_toDigits n.natAbs) n
    rw [renderInt_eq, heq]
    exact List.cons_ne_nil _ _
  refine ordinary_of_allows ⟨hne, by decide, ofChars_renderInt n, allowsPlain_renderInt true n,
    allowsPlain_renderInt false n⟩ rfl fun mark => ?_
  unfold scalarValue
  rw [intValue_renderInt h]
  rfl

theorem ordinary_text (t : Text) :
    (Outline.scalar .str t).Ordinary ∧ (Outline.scalar .str t).Denotes (.text t) :=
  ⟨.inl rfl, rfl, fun _ => rfl⟩

/-! ## Documents -/

variable (style : Bracketing)

mutual

/-- **A plain document has an ordinary outline that denotes it.** -/
theorem exists_outline : ∀ d : Document, IsPlain d → ∃ n, ofDocument style d = .ok n ∧ n.Ordinary ∧
    n.Denotes d ∧ (n.isList = true → ∃ items, d = .list items)
  | .null, _ => ⟨_, rfl, ordinary_null.1, ordinary_null.2, nofun⟩
  | .bool b, _ => ⟨_, by cases b <;> rfl, (ordinary_bool b).1, (ordinary_bool b).2, nofun⟩
  | .int n, h => ⟨_, rfl, (ordinary_int h).1, (ordinary_int h).2, nofun⟩
  | .text t, _ => ⟨_, rfl, (ordinary_text t).1, (ordinary_text t).2, nofun⟩
  | .list items, h => by
    obtain ⟨ns, hns, hordinary, hdenote⟩ := exists_outlines items h
    exact ⟨.list (style = .allInside || ns.all isSimple) ns, by rw [ofDocument, hns]; rfl,
      hordinary, ⟨items, rfl, hdenote⟩, fun _ => ⟨items, rfl⟩⟩
  | .map entries, h => by
    obtain ⟨es, hes, hordinary, hdenote⟩ := exists_entryOutlines entries h.2
    exact ⟨.map .map (style = .allInside || es.all fun e => e.1.isSimple && e.2.isSimple) es,
      by rw [ofDocument, hes]; rfl, ⟨rfl, hordinary⟩, ⟨entries, rfl, h.1, hdenote⟩, nofun⟩

/-- The same of the items of a list. -/
theorem exists_outlines : ∀ ds : List Document, ArePlain ds →
    ∃ ns, ofItems style ds = .ok ns ∧ OrdinaryItems ns ∧ DenoteItems ns ds
  | [], _ => ⟨[], rfl, trivial, rfl⟩
  | d :: ds, h => by
    obtain ⟨n, hn, hordinary, hdenotes, hlist⟩ := exists_outline d h.2.1
    obtain ⟨ns, hns, hordinaries, hdenote⟩ := exists_outlines ds h.2.2
    have hnot : n.isList = false := by
      rw [Bool.eq_false_iff]
      intro hlist'
      obtain ⟨items, rfl⟩ := hlist hlist'
      exact h.1 items rfl
    exact ⟨n :: ns, by rw [ofItems, hn, hns]; rfl, ⟨hnot, hordinary, hordinaries⟩,
      ⟨d, ds, rfl, hdenotes, hdenote⟩⟩

/-- The same of the entries of a mapping. -/
theorem exists_entryOutlines : ∀ entries : List (Document × Document), HavePlainValues entries →
    ∃ es, ofEntries style entries = .ok es ∧ OrdinaryEntries es ∧ DenoteEntries es entries
  | [], _ => ⟨[], rfl, trivial, rfl⟩
  | (key, value) :: rest, h => by
    obtain ⟨⟨w, hw, rfl⟩, hvalue, hrest⟩ := h
    obtain ⟨n, hn, hordinary, hdenotes, -⟩ := exists_outline value hvalue
    obtain ⟨es, hes, hordinaries, hdenote⟩ := exists_entryOutlines rest hrest
    exact ⟨(.scalar .str (ofChars w), n) :: es, by rw [ofEntries, hn, hes]; rfl,
      ⟨⟨w, hw, rfl⟩, hordinary, hordinaries⟩,
      ⟨_, value, rest, rfl, (ordinary_text _).2, hdenotes, hdenote⟩⟩

end

/-- The outline of a mapping is a mapping. -/
theorem exists_eq_map {n : Outline} {entries : List (Document × Document)} (hn : n.Ordinary)
    (hd : n.Denotes (.map entries)) : ∃ inside es, n = .map .map inside es := by
  cases n with
  | scalar tag t => exact nomatch hd.1
  | list inside items =>
    obtain ⟨ds, heq, -⟩ := hd
    exact nomatch heq
  | map tag inside es =>
    obtain ⟨rfl, -⟩ := hn
    exact ⟨inside, es, rfl⟩

/-! ## Expressions -/

/-- The keys of the documents of expressions. -/
def keyWords : List String :=
  ["tag", "value", "name", "expr", "op", "left", "right", "cond", "then", "else", "body", "params",
    "func", "args"]

theorem isKeyWord_of_mem {w : String} (h : w ∈ keyWords) : IsKeyWord w.toList := by
  have all : ∀ w ∈ keyWords, w.toList ≠ [] ∧ (∀ c ∈ w.toList, 'a' ≤ c ∧ c ≤ 'z') ∧
      w.toList.length ≤ wordReach ∧ Tag.ofChars w.toList = .str := by decide
  obtain ⟨hne, hletters, hlength, htag⟩ := all w h
  exact ⟨hne, hletters, hlength, htag⟩

/-- Whether a document is a plain mapping. -/
def IsPlainRecord (d : Document) : Prop := IsPlain d ∧ ∃ entries, d = .map entries

theorem plainValues_record {fields : List (String × Document)}
    (hwords : ∀ w ∈ fields.map (·.1), w ∈ keyWords) (hvalues : ∀ f ∈ fields, IsPlain f.2) :
    HavePlainValues (fields.map fun f => (.text (.ofString f.1), f.2)) := by
  induction fields with
  | nil => trivial
  | cons f fields ih =>
    obtain ⟨hword, hwords⟩ := List.forall_mem_cons.mp hwords
    obtain ⟨hvalue, hvalues⟩ := List.forall_mem_cons.mp hvalues
    exact ⟨⟨_, isKeyWord_of_mem hword, rfl⟩, hvalue, ih hwords hvalues⟩

/-- A record whose names are different key words. -/
theorem plain_record (names : List String) {fields : List (String × Document)}
    (hnames : fields.map (·.1) = names) (hwords : (∀ w ∈ names, w ∈ keyWords) ∧ names.Nodup)
    (hvalues : ∀ f ∈ fields, IsPlain f.2) : IsPlainRecord (.record fields) := by
  subst hnames
  refine ⟨⟨⟨fun e he => ?_, ?_⟩, plainValues_record hwords.1 hvalues⟩, _, rfl⟩
  · obtain ⟨f, -, rfl⟩ := List.mem_map.mp he
    exact ⟨_, rfl⟩
  · refine List.pairwise_map.mpr ((List.pairwise_map.mp hwords.2).imp fun hne => ?_)
    exact beq_eq_false_iff_ne.mpr fun heq => hne (ofString_inj.mp heq)

theorem arePlain_of_records {ds : List Document} (h : ∀ d ∈ ds, IsPlainRecord d) : ArePlain ds := by
  induction ds with
  | nil => trivial
  | cons d ds ih =>
    obtain ⟨⟨hplain, entries, rfl⟩, hds⟩ := List.forall_mem_cons.mp h
    exact ⟨nofun, hplain, ih hds⟩

theorem arePlain_texts (ts : List Text) : ArePlain (ts.map .text) := by
  induction ts with
  | nil => trivial
  | cons t ts ih => exact ⟨nofun, trivial, ih⟩

open Treewalk.Tree

/-- The statements of a chain become a record. -/
theorem plain_joinParts {ds : List Document} (h : ∀ d ∈ ds, IsPlainRecord d) :
    IsPlainRecord (joinParts ds) := by
  have hblock : IsPlainRecord (.record [("tag", .text "block"), ("body", .list ds)]) :=
    plain_record ["tag", "body"] rfl (by decide)
      (by simpa [IsPlain] using arePlain_of_records h)
  unfold joinParts
  split
  · exact h _ (List.mem_singleton.mpr rfl)
  · exact hblock

mutual

/-- The documents of the statements of a well-formed expression are plain records. -/
theorem plain_encodeParts : ∀ e : Expr, e.WellFormed → ∃ ds, encodeParts e = .ok ds ∧
    ∀ d ∈ ds, IsPlainRecord d
  | .literal (.int n), h => by
    refine ⟨_, rfl, List.forall_mem_singleton.mpr ?_⟩
    exact plain_record ["tag", "value"] rfl (by decide)
      (by simpa [IsPlain] using hasFewDigits_of_literal h.self)
  | .literal (.bool b), _ => by
    refine ⟨_, rfl, List.forall_mem_singleton.mpr ?_⟩
    exact plain_record ["tag", "value"] rfl (by decide) (by simp [IsPlain])
  | .literal .null, _ => by
    refine ⟨_, rfl, List.forall_mem_singleton.mpr ?_⟩
    exact plain_record ["tag"] rfl (by decide) (by simp [IsPlain])
  | .literal (.closure ..), h => absurd h.self id
  | .var name, _ => by
    refine ⟨_, rfl, List.forall_mem_singleton.mpr ?_⟩
    exact plain_record ["tag", "name"] rfl (by decide) (by simp [IsPlain])
  | .print arg, h => by
    obtain ⟨ds, hds, hplain⟩ := plain_encodeParts arg h.2
    refine ⟨_, by simp only [encodeParts, hds]; rfl, List.forall_mem_singleton.mpr ?_⟩
    exact plain_record ["tag", "expr"] rfl (by decide)
      (by simpa [IsPlain] using (plain_joinParts hplain).1)
  | .binop op left right, h => by
    obtain ⟨ls, hls, hleft⟩ := plain_encodeParts left h.2.1
    obtain ⟨rs, hrs, hright⟩ := plain_encodeParts right h.2.2
    refine ⟨_, by simp only [encodeParts, hls, hrs]; rfl, List.forall_mem_singleton.mpr ?_⟩
    exact plain_record ["tag", "op", "left", "right"] rfl (by decide)
      (by simpa [IsPlain] using ⟨(plain_joinParts hleft).1, (plain_joinParts hright).1⟩)
  | .cond test thn els, h => by
    obtain ⟨cs, hcs, htest⟩ := plain_encodeParts test h.2.1
    obtain ⟨t, ht, hthn⟩ := plain_encodeBlock thn h.2.2.1
    obtain ⟨fs, hfs, hels⟩ := plain_encodeElse els h.2.2.2
    refine ⟨_, by simp only [encodeParts, hcs, ht, hfs]; rfl, List.forall_mem_singleton.mpr ?_⟩
    rcases hels with rfl | ⟨d, rfl, hd⟩
    · exact plain_record ["tag", "cond", "then"] rfl (by decide)
        (by simpa [IsPlain] using ⟨(plain_joinParts htest).1, hthn⟩)
    · exact plain_record ["tag", "cond", "then", "else"] rfl (by decide)
        (by simpa [IsPlain] using ⟨(plain_joinParts htest).1, hthn, hd⟩)
  | .loop test body, h => by
    obtain ⟨cs, hcs, htest⟩ := plain_encodeParts test h.2.1
    obtain ⟨b, hb, hbody⟩ := plain_encodeBlock body h.2.2
    refine ⟨_, by simp only [encodeParts, hcs, hb]; rfl, List.forall_mem_singleton.mpr ?_⟩
    exact plain_record ["tag", "cond", "body"] rfl (by decide)
      (by simpa [IsPlain] using ⟨(plain_joinParts htest).1, hbody⟩)
  | .seq first second, h => by
    obtain ⟨ds, hds, hfirst⟩ := plain_encodeParts first h.2.1
    obtain ⟨es, hes, hsecond⟩ := plain_encodeParts second h.2.2
    refine ⟨_, by simp only [encodeParts, hds, hes]; rfl, ?_⟩
    exact List.forall_mem_append.mpr
      ⟨hfirst, List.forall_mem_singleton.mpr (plain_joinParts hsecond)⟩
  | .decl name init, h => by
    obtain ⟨ds, hds, hinit⟩ := plain_encodeParts init h.2
    refine ⟨_, by simp only [encodeParts, hds]; rfl, List.forall_mem_singleton.mpr ?_⟩
    exact plain_record ["tag", "name", "expr"] rfl (by decide)
      (by simpa [IsPlain] using (plain_joinParts hinit).1)
  | .assign name rhs, h => by
    obtain ⟨ds, hds, hrhs⟩ := plain_encodeParts rhs h.2
    refine ⟨_, by simp only [encodeParts, hds]; rfl, List.forall_mem_singleton.mpr ?_⟩
    exact plain_record ["tag", "name", "expr"] rfl (by decide)
      (by simpa [IsPlain] using (plain_joinParts hrhs).1)
  | .func params body, h => by
    obtain ⟨b, hb, hbody⟩ := plain_encodeBlock body h.2
    refine ⟨_, by simp only [encodeParts, hb]; rfl, List.forall_mem_singleton.mpr ?_⟩
    exact plain_record ["tag", "params", "body"] rfl (by decide)
      (by simpa [IsPlain] using ⟨arePlain_texts params, hbody⟩)
  | .call callee args, h => by
    obtain ⟨ds, hds, hcallee⟩ := plain_encodeParts callee h.2.1
    obtain ⟨as, has, hargs⟩ := plain_encodeArgs args h.2.2
    refine ⟨_, by simp only [encodeParts, hds, has]; rfl, List.forall_mem_singleton.mpr ?_⟩
    exact plain_record ["tag", "func", "args"] rfl (by decide)
      (by simpa [IsPlain] using ⟨(plain_joinParts hcallee).1, arePlain_of_records hargs⟩)

/-- The document of a block is plain. -/
theorem plain_encodeBlock : ∀ b : Option Expr, Expr.EverywhereBlock Expr.NodeOk b →
    ∃ d, encodeBlock b = .ok d ∧ IsPlain d
  | none, _ => ⟨.null, rfl, trivial⟩
  | some body, h => by
    obtain ⟨ds, hds, hplain⟩ := plain_encodeParts body h
    exact ⟨_, by simp only [encodeBlock, hds]; rfl, (plain_joinParts hplain).1⟩

/-- The field of a branch is plain, unless it is missing. -/
theorem plain_encodeElse : ∀ b : Option Expr, Expr.EverywhereBlock Expr.NodeOk b →
    ∃ fs, encodeElse b = .ok fs ∧ (fs = [] ∨ ∃ d, fs = [("else", d)] ∧ IsPlain d)
  | none, _ => ⟨[], rfl, .inl rfl⟩
  | some body, h => by
    obtain ⟨ds, hds, hplain⟩ := plain_encodeParts body h
    exact ⟨_, by simp only [encodeElse, hds]; rfl, .inr ⟨_, rfl, (plain_joinParts hplain).1⟩⟩

/-- The documents of arguments are plain records. -/
theorem plain_encodeArgs : ∀ args : List Expr, Expr.EverywhereArgs Expr.NodeOk args →
    ∃ ds, encodeArgs args = .ok ds ∧ ∀ d ∈ ds, IsPlainRecord d
  | [], _ => ⟨[], rfl, nofun⟩
  | arg :: args, h => by
    obtain ⟨ds, hds, hplain⟩ := plain_encodeParts arg h.1
    obtain ⟨es, hes, hargs⟩ := plain_encodeArgs args h.2
    exact ⟨_, by simp only [encodeArgs, hds, hes]; rfl,
      List.forall_mem_cons.mpr ⟨plain_joinParts hplain, hargs⟩⟩

end

/-- **The document of a well-formed expression is a plain record.** -/
theorem plain_encode {e : Expr} (h : e.WellFormed) {d : Document} (hd : encode e = .ok d) :
    IsPlainRecord d := by
  obtain ⟨ds, hds, hplain⟩ := plain_encodeParts e h
  have hencode : encode e = .ok (joinParts ds) := by
    simp only [encode, hds]
    rfl
  cases hd.symm.trans hencode
  exact plain_joinParts hplain

end Treewalk.Yaml
