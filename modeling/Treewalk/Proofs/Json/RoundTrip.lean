import Treewalk.Format.Read
import Treewalk.Format.Write
import Treewalk.Proofs.Json.Collections
import Treewalk.Proofs.Tree.WellFormed
import Treewalk.Proofs.Yaml.Outlines

/-!
# Values and programs survive being written as JSON

A value that is written as JSON is read as the value with its tuples as lists, whether the text is
labelled as JSON or its format is told by its first character, and is never taken for YAML. The
document of a program is such a value, and it is nested at most twice as deeply as the program has
levels, so a program that is not too deep to be read survives being written
(`readDocument_writeDocument`).
-/

namespace Treewalk

open Json Text

namespace Tree

/-! ## The nesting of the documents of expressions -/

theorem itemsNesting_append (ds ds' : List Document) :
    itemsNesting (ds ++ ds') = max (itemsNesting ds) (itemsNesting ds') := by
  induction ds with
  | nil => exact (Nat.zero_max _).symm
  | cons d ds ih => rw [List.cons_append, itemsNesting, itemsNesting, ih, Nat.max_assoc]

/-- The record of a block and the list in it stand around the statements of a chain. -/
theorem nesting_joinParts_le (ds : List Document) :
    nesting (joinParts ds) ≤ itemsNesting ds + 2 := by
  unfold joinParts
  split
  · simp only [itemsNesting]
    omega
  · simp only [Document.record, nesting, entriesNesting, List.map]
    omega

/-- Whether the documents of the statements of an expression are nested at most twice as deeply as
the expression has levels. -/
def FitsLevels (ds : List Document) (e : Expr) : Prop :=
  itemsNesting ds ≤ 2 * e.levelsAt 0 ∧ nesting (joinParts ds) ≤ 2 * e.levels

/-- A single record fits if the values of its fields do. -/
theorem fitsLevels_record {fields : List (String × Document)} {e : Expr}
    (he : e.levelsAt 0 = e.levels) (h : ∀ f ∈ fields, nesting f.2 < 2 * e.levels) :
    FitsLevels [.record fields] e := by
  have hpos := e.levels_pos
  have hentries : nesting (.record fields) ≤ 2 * e.levels := by
    unfold Document.record nesting
    induction fields with
    | nil =>
      show 0 + 1 ≤ _
      omega
    | cons f fields ih =>
      obtain ⟨hf, hfields⟩ := List.forall_mem_cons.mp h
      have hrest := ih hfields
      simp only [List.map_cons, entriesNesting, nesting]
      omega
  refine ⟨?_, hentries⟩
  rw [he]
  exact Nat.max_le.mpr ⟨hentries, Nat.zero_le _⟩

theorem itemsNesting_texts (ts : List Text) : itemsNesting (ts.map .text) = 0 := by
  induction ts with
  | nil => rfl
  | cons t ts ih =>
    rw [List.map_cons, itemsNesting, ih]
    rfl

mutual

/-- The documents of the statements of an expression fit its levels. -/
theorem fitsLevels_encodeParts : ∀ (e : Expr) {ds : List Document}, encodeParts e = .ok ds →
    FitsLevels ds e
  | .literal (.int _), _, h | .literal (.bool _), _, h | .literal .null, _, h | .var _, _, h => by
    cases h
    exact fitsLevels_record rfl (by simp [nesting, Expr.levels, Expr.levelsAt])
  | .literal (.closure ..), _, h => by cases h
  | .print arg, _, h | .decl _ arg, _, h | .assign _ arg, _, h => by
    obtain ⟨ds, hds, h⟩ := bind_eq_ok.mp h
    cases h
    have harg := (fitsLevels_encodeParts arg hds).2
    refine fitsLevels_record rfl ?_
    simp [nesting, Expr.levels, Expr.levelsAt] at harg ⊢
    omega
  | .binop _ left right, _, h => by
    obtain ⟨ls, hls, h⟩ := bind_eq_ok.mp h
    obtain ⟨rs, hrs, h⟩ := bind_eq_ok.mp h
    cases h
    have hleft := (fitsLevels_encodeParts left hls).2
    have hright := (fitsLevels_encodeParts right hrs).2
    refine fitsLevels_record rfl ?_
    simp [nesting, Expr.levels, Expr.levelsAt] at hleft hright ⊢
    omega
  | .cond test thn els, _, h => by
    obtain ⟨cs, hcs, h⟩ := bind_eq_ok.mp h
    obtain ⟨t, ht, h⟩ := bind_eq_ok.mp h
    obtain ⟨fs, hfs, h⟩ := bind_eq_ok.mp h
    cases h
    have htest := (fitsLevels_encodeParts test hcs).2
    have hthn := nesting_encodeBlock_le thn ht
    have hels := nesting_encodeElse_le els hfs
    refine fitsLevels_record rfl (List.forall_mem_append.mpr ⟨?_, fun f hf => ?_⟩)
    · simp [nesting, Expr.levels, Expr.levelsAt] at htest ⊢
      omega
    · have hf := hels f hf
      simp [Expr.levels, Expr.levelsAt]
      omega
  | .loop test body, _, h => by
    obtain ⟨cs, hcs, h⟩ := bind_eq_ok.mp h
    obtain ⟨b, hb, h⟩ := bind_eq_ok.mp h
    cases h
    have htest := (fitsLevels_encodeParts test hcs).2
    have hbody := nesting_encodeBlock_le body hb
    refine fitsLevels_record rfl ?_
    simp [nesting, Expr.levels, Expr.levelsAt] at htest ⊢
    omega
  | .seq first second, _, h => by
    obtain ⟨before, hbefore, h⟩ := bind_eq_ok.mp h
    obtain ⟨last, hlast, h⟩ := bind_eq_ok.mp h
    cases h
    have hfirst := (fitsLevels_encodeParts first hbefore).1
    have hsecond := (fitsLevels_encodeParts second hlast).2
    have hitems : itemsNesting (before ++ [joinParts last]) ≤
        2 * (Expr.seq first second).levelsAt 0 := by
      rw [itemsNesting_append]
      simp [itemsNesting, Expr.levels, Expr.levelsAt] at hsecond ⊢
      omega
    refine ⟨hitems, Nat.le_trans (nesting_joinParts_le _) ?_⟩
    simp [Expr.levels, Expr.levelsAt] at hitems ⊢
    omega
  | .func params body, _, h => by
    obtain ⟨b, hb, h⟩ := bind_eq_ok.mp h
    cases h
    have hbody := nesting_encodeBlock_le body hb
    have hparams := itemsNesting_texts params
    refine fitsLevels_record rfl ?_
    simp [nesting, Expr.levels, Expr.levelsAt, hparams]
    omega
  | .call callee args, _, h => by
    obtain ⟨fs, hfs, h⟩ := bind_eq_ok.mp h
    obtain ⟨as, has, h⟩ := bind_eq_ok.mp h
    cases h
    have hcallee := (fitsLevels_encodeParts callee hfs).2
    have hargs := itemsNesting_encodeArgs_le args has
    refine fitsLevels_record rfl ?_
    simp [nesting, Expr.levels, Expr.levelsAt] at hcallee ⊢
    omega

theorem nesting_encodeBlock_le : ∀ (b : Option Expr) {d : Document}, encodeBlock b = .ok d →
    nesting d ≤ 2 * Expr.blockLevels b
  | none, _, h => by
    cases h
    exact Nat.zero_le _
  | some body, _, h => by
    obtain ⟨ds, hds, h⟩ := bind_eq_ok.mp h
    cases h
    exact (fitsLevels_encodeParts body hds).2

theorem nesting_encodeElse_le : ∀ (b : Option Expr) {fs : List (String × Document)},
    encodeElse b = .ok fs → ∀ f ∈ fs, nesting f.2 ≤ 2 * Expr.blockLevels b
  | none, _, h => by
    cases h
    exact List.forall_mem_nil _
  | some body, _, h => by
    obtain ⟨ds, hds, h⟩ := bind_eq_ok.mp h
    cases h
    exact List.forall_mem_singleton.mpr (fitsLevels_encodeParts body hds).2

theorem itemsNesting_encodeArgs_le : ∀ (args : List Expr) {ds : List Document},
    encodeArgs args = .ok ds → itemsNesting ds ≤ 2 * Expr.argLevels args
  | [], _, h => by
    cases h
    exact Nat.zero_le _
  | arg :: args, _, h => by
    obtain ⟨ds, hds, h⟩ := bind_eq_ok.mp h
    obtain ⟨es, hes, h⟩ := bind_eq_ok.mp h
    cases h
    have harg := (fitsLevels_encodeParts arg hds).2
    have hargs := itemsNesting_encodeArgs_le args hes
    simp [itemsNesting, Expr.levels, Expr.argLevels] at harg ⊢
    omega

end

/-- The document of an expression is nested at most twice as deeply as the expression has levels. -/
theorem nesting_encode_le {e : Expr} {d : Document} (h : encode e = .ok d) :
    nesting d ≤ 2 * e.levels := by
  obtain ⟨ds, hds, h⟩ := bind_eq_ok.mp h
  cases h
  exact (fitsLevels_encodeParts e hds).2

end Tree

/-! ## Plain documents -/

mutual

/-- A plain document is a value without tuples. -/
theorem isValue_of_isPlain : ∀ d : Document, Yaml.IsPlain d → IsValue d ∧ listed d = d
  | .null, _ | .bool _, _ | .text _, _ => ⟨trivial, rfl⟩
  | .int _, h => ⟨h, rfl⟩
  | .list items, h => by
    obtain ⟨hvalues, heq⟩ := areValues_of_arePlain items h
    exact ⟨hvalues, congrArg Document.list heq⟩
  | .map entries, h => by
    obtain ⟨hvalues, heq⟩ := haveValues_of_havePlainValues entries h.2
    exact ⟨⟨h.1, hvalues⟩, congrArg Document.map heq⟩
  | .real _, h | .bytes _, h | .date _, h | .moment _, h | .tuple _, h | .set _, h | .node _, h
  | .link _, h => False.elim h

theorem areValues_of_arePlain : ∀ ds : List Document, Yaml.ArePlain ds →
    AreValues ds ∧ listedItems ds = ds
  | [], _ => ⟨trivial, rfl⟩
  | d :: ds, h => by
    obtain ⟨hvalue, hd⟩ := isValue_of_isPlain d h.2.1
    obtain ⟨hvalues, hds⟩ := areValues_of_arePlain ds h.2.2
    exact ⟨⟨hvalue, hvalues⟩, by rw [listedItems, hd, hds]⟩

theorem haveValues_of_havePlainValues : ∀ entries : List (Document × Document),
    Yaml.HavePlainValues entries → HaveValues entries ∧ listedEntries entries = entries
  | [], _ => ⟨trivial, rfl⟩
  | (key, value) :: entries, h => by
    obtain ⟨hvalue, hd⟩ := isValue_of_isPlain value h.2.1
    obtain ⟨hvalues, hds⟩ := haveValues_of_havePlainValues entries h.2.2
    exact ⟨⟨hvalue, hvalues⟩, by rw [listedEntries, hd, hds]⟩

end

/-! ## Formats -/

/-- A written collection looks like JSON. -/
theorem Format.ofText?_enclose (l : Layout) (level : Nat) {opening : Char}
    (hopening : opening = '\x7b' ∨ opening = '[') (closing : Char) (items : List Text) :
    Format.ofText? (l.enclose level opening closing items) = some .json := by
  have hstart : ∃ tail, l.enclose level opening closing items = .char opening :: tail := by
    unfold Layout.enclose
    split
    · exact ⟨_, rfl⟩
    · exact ⟨_, rfl⟩
  obtain ⟨tail, heq⟩ := hstart
  rw [heq]
  rcases hopening with rfl | rfl <;> rfl

theorem Format.ofText?_write {l : Layout} {v : Document} {t : Text} (hv : IsValue v)
    (hcollection : Yaml.isScalar v = false) (h : Json.write l v = .ok t) :
    Format.ofText? t = some .json := by
  cases v with
  | list items | tuple items =>
    obtain ⟨ts, -, h⟩ := Tree.bind_eq_ok.mp h
    cases h
    exact ofText?_enclose l 0 (.inr rfl) ']' ts
  | map entries =>
    obtain ⟨ts, -, h⟩ := Tree.bind_eq_ok.mp h
    cases h
    exact ofText?_enclose l 0 (.inl rfl) '\x7d' ts
  | set members => exact False.elim hv
  | _ => cases hcollection

/-- A value has a text, which is read as the value where it is taken for JSON. -/
theorem exists_writeDocument_json {v : Document} (hv : IsValue v) (pretty : Bool) :
    ∃ t, writeDocument (some "json") pretty v = .ok t ∧
      (Yaml.isScalar v = false → Format.ofText? t = some .json) ∧
      (nesting v ≤ Json.depthLimit → readText .json t = .ok ↑(listed v)) := by
  obtain ⟨t, ht, hread⟩ := read_write (if pretty then .indented jsonIndent else .oneLine) hv
  refine ⟨t, ?_, fun hcollection => Format.ofText?_write hv hcollection ht, fun hdepth => ?_⟩
  · show writeText .json pretty v = .ok t
    unfold writeText
    dsimp only
    rw [ht]
  · unfold readText
    dsimp only
    rw [hread Json.depthLimit hdepth]

theorem readDocument_json (t : Text) (contentType : Option Text) :
    readDocument (.text t) (some "json") contentType = readText .json t := rfl

theorem readDocument_sniffed {t : Text} (h : Format.ofText? t = some .json) :
    readDocument (.text t) none none = readText .json t := by
  have hformat : chooseFormat none none t = .ok .json := by
    show Except.ok ((Format.ofText? t).getD .yaml) = _
    rw [h]
    rfl
  show (chooseFormat none none t).bind (fun format => readText format t) = _
  rw [hformat]
  rfl

open Treewalk.Tree in
/-- **What is written as JSON is read as itself.** Every value has a text, laid out for reading or
not. Unless its collections are nested too deeply, the text is read as the value with its tuples as
lists, wherever it is labelled as JSON, and that of a collection also without any label. So every
well-formed program that is not nested too deeply is read again from the text of its document. -/
theorem readDocument_writeDocument :
    (∀ (v : Document) (pretty : Bool), IsValue v → nesting v ≤ Json.depthLimit →
      ∃ t, writeDocument (some "json") pretty v = .ok t ∧
        (∀ contentType, readDocument (.text t) (some "json") contentType = .ok ↑(listed v)) ∧
        (Yaml.isScalar v = false → readDocument (.text t) none none = .ok ↑(listed v))) ∧
    ∀ (e : Expr) (pretty : Bool), e.WellFormed → ∃ d t, encode e = .ok d ∧
      writeDocument (some "json") pretty d = .ok t ∧
      (e.levels ≤ Tree.depthLimit → readDocument (.text t) none none = .ok ↑d ∧
        readDocument (.text t) (some "json") none = .ok ↑d ∧
        decode Tree.depthLimit ↑d = .ok (some e)) := by
  constructor
  · intro v pretty hv hdepth
    obtain ⟨t, ht, hlook, hread⟩ := exists_writeDocument_json hv pretty
    refine ⟨t, ht, fun contentType => ?_, fun hcollection => ?_⟩
    · rw [readDocument_json, hread hdepth]
    · rw [readDocument_sniffed (hlook hcollection), hread hdepth]
  · intro e pretty he
    obtain ⟨d, hd, -, hdecode⟩ := exists_encode he
    obtain ⟨hplain, entries, rfl⟩ := Yaml.plain_encode he hd
    obtain ⟨hv, hlisted⟩ := isValue_of_isPlain _ hplain
    obtain ⟨t, ht, hlook, hread⟩ := exists_writeDocument_json hv pretty
    refine ⟨_, t, hd, ht, fun hlevels => ?_⟩
    have hdepth : nesting (.map entries) ≤ Json.depthLimit := by
      have hle := nesting_encode_le hd
      unfold Tree.depthLimit at hlevels
      unfold Json.depthLimit
      omega
    have htext : readText .json t = .ok ↑(Document.map entries) := by
      rw [hread hdepth, hlisted]
    refine ⟨?_, ?_, hdecode _ _ hlevels⟩
    · rw [readDocument_sniffed (hlook rfl), htext]
    · rw [readDocument_json, htext]

/-- A tuple in a mapping, with a control character and a surrogate in its text. -/
theorem readDocument_writeDocument_tuple :
    let v : Document := .map [(.text "a\x01\"", .tuple [.int (-7), .text [.surrogate 0]]),
      (.text "", .list [])]
    let e : Expr := .seq (.assign "é" (.literal (.int (-5)))) (.func ["\n"] none)
    IsValue v ∧ nesting v ≤ Json.depthLimit ∧ e.WellFormed ∧ e.levels ≤ Tree.depthLimit ∧
      (∃ t, writeDocument (some "json") true v = .ok t ∧ readDocument (.text t) none none =
        .ok ↑(Document.map [(.text "a\x01\"", .list [.int (-7), .text [.surrogate 0]]),
          (.text "", .list [])])) ∧
      ∃ d t, Tree.encode e = .ok d ∧ writeDocument (some "json") false d = .ok t ∧
        readDocument (.text t) none none = .ok ↑d ∧
        Tree.decode Tree.depthLimit ↑d = .ok (some e) := by
  intro v e
  have hv : IsValue v := by
    refine ⟨⟨by simp, ?_⟩, ⟨Number.hasFewDigits_of_literal (by decide), trivial, trivial⟩, trivial,
      trivial⟩
    exact List.pairwise_pair.mpr rfl
  have he : e.WellFormed := by
    simp [e, Expr.WellFormed, Expr.Everywhere, Expr.EverywhereBlock, Value.Everywhere, Expr.NodeOk,
      Value.IsLiteral, Value.intMin, Value.intMax, Text.ofString, Text.ofChars]
  have hdepth : nesting v ≤ Json.depthLimit := by decide
  have hlevels : e.levels ≤ Tree.depthLimit := by decide
  obtain ⟨t, ht, -, hread⟩ := readDocument_writeDocument.1 v true hv hdepth
  obtain ⟨d, t', hd, ht', hprogram⟩ := readDocument_writeDocument.2 e false he
  obtain ⟨hsniffed, -, hdecode⟩ := hprogram hlevels
  exact ⟨hv, hdepth, he, hlevels, ⟨t, ht, hread rfl⟩, d, t', hd, ht', hsniffed, hdecode⟩

end Treewalk
