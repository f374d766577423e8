import Treewalk.Proofs.Tree.Grammar

/-!
# The decoder accepts the grammar

Each reader of the decoder accepts what the grammar has in its place, if the reader of children does
(`Agrees`). So, level by level, the decoder accepts a basic document exactly if it derives, gives
what the derivation denotes, and refuses every other one as malformed (`decode_iff_denotes`).

The fields that hold lists have to be absent, null, or lists: the decoder takes other values that
count as empty for no list at all.
-/

namespace Treewalk.Tree

open Document

/-! ## Fields -/

section

variable {table : Array Document} {child : Document → Decoded}
  {entries : List (Document × Document)} {tag field : String}

theorem listField_of_listField {fault : TreeFault} {items : List Document}
    (h : ListField entries field items) : listField table fault entries field = .ok items := by
  cases h with
  | absent h => exact listField_eq_ok_iff.mpr (.inl ⟨h, rfl⟩)
  | null h => exact listField_eq_ok_iff.mpr (.inr ⟨_, h, .inl ⟨rfl, rfl⟩⟩)
  | list h => exact listField_of_follow h rfl

/-- Where a field may be read as a list, it is read as its items. -/
theorem listField_iff {fault : TreeFault} {items : List Document}
    (hlist : ∃ items, ListField entries field items) :
    listField table fault entries field = .ok items ↔ ListField entries field items := by
  obtain ⟨items', h'⟩ := hlist
  constructor
  · intro h
    cases (listField_of_listField h').symm.trans h
    exact h'
  · exact listField_of_listField

/-! ## Parts -/

/-- Whether a reader of documents accepts a document as the grammar does. -/
def Agrees (child : Document → Decoded) (d : Document) : Prop :=
  ∀ e?, child d = .ok e? ↔ Denotes d e?

theorem requiredExpr_iff {e : Expr}
    (hchild : ∀ d, field? field entries = some d → Agrees child d) :
    requiredExpr child tag entries field = .ok e ↔ Child entries field e := by
  rw [requiredExpr_eq_ok_iff]
  constructor
  · rintro ⟨d, ⟨hfield, hnull⟩, he⟩
    exact .mk hfield hnull ((hchild d hfield _).mp he)
  · rintro ⟨hfield, hnull, hd⟩
    exact ⟨_, ⟨hfield, hnull⟩, (hchild _ hfield _).mpr hd⟩

theorem block_iff {b : Option Expr}
    (hchild : ∀ d, field? field entries = some d → Agrees child d) :
    block child entries field = .ok b ↔ Branch entries field b := by
  rw [block_eq_ok_iff]
  constructor
  · rintro (⟨hfield, rfl⟩ | ⟨hfield, rfl⟩ | ⟨d, ⟨hfield, hnull⟩, hread⟩)
    · exact .absent hfield
    · exact .null hfield
    · exact .child hfield hnull ((hchild d hfield b).mp hread)
  · intro h
    cases h with
    | absent hfield => exact .inl ⟨hfield, rfl⟩
    | null hfield => exact .inr (.inl ⟨hfield, rfl⟩)
    | child hfield hnull hd => exact .inr (.inr ⟨_, ⟨hfield, hnull⟩, (hchild _ hfield b).mpr hd⟩)

theorem statements_iff {ds : List Document} {es : List Expr}
    (hchild : ∀ d ∈ ds, Agrees child d) :
    statements child ds = .ok es ↔ Statements ds es := by
  induction ds generalizing es with
  | nil =>
    constructor
    · intro h
      cases h
      exact .nil
    · intro h
      cases h
      rfl
  | cons d ds ih =>
    obtain ⟨hd, hrest⟩ := List.forall_mem_cons.mp hchild
    by_cases hnull : d = .null
    · subst hnull
      constructor
      · intro h
        exact .null ((ih hrest).mp h)
      · intro h
        cases h with
        | null h => exact (ih hrest).mpr h
        | empty hnull => exact absurd rfl hnull
        | cons hnull => exact absurd rfl hnull
    · rw [statements_cons_eq_ok_iff hnull]
      constructor
      · rintro ⟨_ | e, rest, he, hes, rfl⟩
        · exact .empty hnull ((hd _).mp he) ((ih hrest).mp hes)
        · exact .cons hnull ((hd _).mp he) ((ih hrest).mp hes)
      · intro h
        cases h with
        | null => exact absurd rfl hnull
        | empty _ he hes => exact ⟨none, _, (hd _).mpr he, (ih hrest).mpr hes, rfl⟩
        | cons _ he hes => exact ⟨some _, _, (hd _).mpr he, (ih hrest).mpr hes, rfl⟩

theorem arguments_iff {ds : List Document} {es : List Expr}
    (hchild : ∀ d ∈ ds, Agrees child d) :
    arguments child ds = .ok es ↔ Arguments ds es := by
  induction ds generalizing es with
  | nil =>
    constructor
    · intro h
      cases h
      exact .nil
    · intro h
      cases h
      rfl
  | cons d ds ih =>
    obtain ⟨hd, hrest⟩ := List.forall_mem_cons.mp hchild
    rw [arguments_cons_eq_ok_iff]
    constructor
    · rintro ⟨e, rest, he, hes, rfl⟩
      exact .cons ((hd _).mp he) ((ih hrest).mp hes)
    · intro h
      cases h with
      | cons he hes => exact ⟨_, _, (hd _).mpr he, (ih hrest).mpr hes, rfl⟩

/-! ## Records -/

/-- The fields that hold a list, by tag. -/
def listFields : List (String × String) :=
  [("block", "body"), ("program", "body"), ("function", "params"), ("call", "args")]

/-- Whether the fields of a record that should hold a list are absent, null, or lists. -/
def HasListFields (entries : List (Document × Document)) : Prop :=
  ∀ tag field, (tag, field) ∈ listFields → HasTag entries tag →
    ∃ items, ListField entries field items

/-- A document denotes what the list of its statements does. -/
theorem denotes_list_iff {items : List Document} {e? : Option Expr} :
    Denotes (.list items) e? ↔ ∃ es, Statements items es ∧ e? = Expr.ofStatements? es := by
  constructor
  · intro h
    cases h with
    | list h => exact ⟨_, h, rfl⟩
  · rintro ⟨es, h, rfl⟩
    exact .list h

variable (htag : HasTag entries tag) (hparts : PartsHave table (Agrees child) entries)
  (hop : ∀ d, field? "op" entries = some d → IsBasicNode d)

include htag hparts hop

/-- A record that is accepted derives. -/
theorem denotes_of_tagged {e? : Option Expr} (hlists : HasListFields entries)
    (h : tagged table child entries tag = .ok e?) : Denotes (.map entries) e? := by
  have hfield : ∀ {field : String} d, field? field entries = some d → Agrees child d :=
    fun _ => hparts.field
  cases tagged_eq_ok_iff.mp h with
  | int hd hlit =>
    obtain ⟨n, rfl, hn, rfl⟩ := intLiteral_eq_ok_iff.mp hlit
    exact .intNode htag (required_eq_ok_iff.mp hd).1 hn
  | bool hd => exact .boolNode htag (required_eq_ok_iff.mp hd).1
  | null => exact .nullNode htag
  | block hblock hitems hread =>
    obtain ⟨es, hes, rfl⟩ :=
      denotes_list_iff.mp (((hparts.of_listField hitems).1 _).mp hread)
    have hmem : (tag, "body") ∈ listFields := by
      rcases hblock with rfl | rfl <;> decide
    exact .block htag hblock ((listField_iff (hlists _ _ hmem htag)).mp hitems) hes
  | seq hfirst hsecond =>
    exact .seq htag ((requiredExpr_iff hfield).mp hfirst) ((requiredExpr_iff hfield).mp hsecond)
  | var hname => exact .var htag (requiredName_eq_ok_iff.mp hname)
  | decl hname hinit =>
    exact .decl htag (requiredName_eq_ok_iff.mp hname) ((requiredExpr_iff hfield).mp hinit)
  | assign hname hrhs =>
    exact .assign htag (requiredName_eq_ok_iff.mp hname) ((requiredExpr_iff hfield).mp hrhs)
  | binop hgiven hlookup hleft hright =>
    have hgiven := (required_eq_ok_iff.mp hgiven).1
    obtain ⟨s, rfl, hs⟩ := (lookup?_asText (hop _ hgiven)).mp hlookup
    exact .binop htag hgiven hs ((requiredExpr_iff hfield).mp hleft)
      ((requiredExpr_iff hfield).mp hright)
  | cond hthen htest hthn hels =>
    exact .cond htag hthen ((requiredExpr_iff hfield).mp htest) ((block_iff hfield).mp hthn)
      ((block_iff hfield).mp hels)
  | loop hthere htest hbody =>
    exact .loop htag hthere ((requiredExpr_iff hfield).mp htest) ((block_iff hfield).mp hbody)
  | print harg => exact .print htag ((requiredExpr_iff hfield).mp harg)
  | func hitems hparams hbody =>
    exact .func htag ((listField_iff (hlists _ _ (by decide) htag)).mp hitems)
      (paramNames_eq_ok_iff.mp hparams) ((block_iff hfield).mp hbody)
  | call hitems hargs hcallee =>
    exact .call htag ((listField_iff (hlists _ _ (by decide) htag)).mp hitems)
      ((arguments_iff (hparts.of_listField hitems).2).mp hargs)
      ((requiredExpr_iff hfield).mp hcallee)

/-- A record that derives is accepted. -/
theorem tagged_of_denotes {e? : Option Expr} (h : Denotes (.map entries) e?) :
    tagged table child entries tag = .ok e? := by
  have hfield : ∀ {field : String} d, field? field entries = some d → Agrees child d :=
    fun _ => hparts.field
  refine tagged_eq_ok_iff.mpr ?_
  -- The tag of the derivation is the tag of the record.
  cases h with
  | intNode htag' hvalue hn =>
    obtain rfl := htag.unique htag'
    exact .int (required_eq_ok_iff.mpr ⟨hvalue, by simp⟩)
      (intLiteral_eq_ok_iff.mpr ⟨_, rfl, hn, rfl⟩)
  | boolNode htag' hvalue =>
    obtain rfl := htag.unique htag'
    exact .bool (required_eq_ok_iff.mpr ⟨hvalue, by simp⟩)
  | nullNode htag' =>
    obtain rfl := htag.unique htag'
    exact .null
  | block htag' hblock hitems hes =>
    obtain rfl := htag.unique htag'
    have hitems' : listField table (.bodyNotAList tag) entries "body" = .ok _ :=
      listField_of_listField hitems
    exact .block hblock hitems' (((hparts.of_listField hitems').1 _).mpr (.list hes))
  | seq htag' hfirst hsecond =>
    obtain rfl := htag.unique htag'
    exact .seq ((requiredExpr_iff hfield).mpr hfirst) ((requiredExpr_iff hfield).mpr hsecond)
  | var htag' hname =>
    obtain rfl := htag.unique htag'
    exact .var (requiredName_eq_ok_iff.mpr hname)
  | decl htag' hname hinit =>
    obtain rfl := htag.unique htag'
    exact .decl (requiredName_eq_ok_iff.mpr hname) ((requiredExpr_iff hfield).mpr hinit)
  | assign htag' hname hrhs =>
    obtain rfl := htag.unique htag'
    exact .assign (requiredName_eq_ok_iff.mpr hname) ((requiredExpr_iff hfield).mpr hrhs)
  | binop htag' hgiven hs hleft hright =>
    obtain rfl := htag.unique htag'
    have hlookup := (lookup?_asText (hop _ hgiven)).mpr ⟨_, rfl, hs⟩
    exact .binop (required_eq_ok_iff.mpr ⟨hgiven, by simp⟩) hlookup
      ((requiredExpr_iff hfield).mpr hleft) ((requiredExpr_iff hfield).mpr hright)
  | cond htag' hthen htest hthn hels =>
    obtain rfl := htag.unique htag'
    exact .cond hthen ((requiredExpr_iff hfield).mpr htest) ((block_iff hfield).mpr hthn)
      ((block_iff hfield).mpr hels)
  | loop htag' hthere htest hbody =>
    obtain rfl := htag.unique htag'
    exact .loop hthere ((requiredExpr_iff hfield).mpr htest) ((block_iff hfield).mpr hbody)
  | print htag' harg =>
    obtain rfl := htag.unique htag'
    exact .print ((requiredExpr_iff hfield).mpr harg)
  | func htag' hitems hparams hbody =>
    obtain rfl := htag.unique htag'
    exact .func (listField_of_listField hitems) (paramNames_eq_ok_iff.mpr hparams)
      ((block_iff hfield).mpr hbody)
  | call htag' hitems hargs hcallee =>
    obtain rfl := htag.unique htag'
    have hitems' : listField table .argsNotAList entries "args" = .ok _ :=
      listField_of_listField hitems
    exact .call hitems' ((arguments_iff (hparts.of_listField hitems').2).mpr hargs)
      ((requiredExpr_iff hfield).mpr hcallee)

end

/-! ## Documents -/

/-- Whether a node is basic, and the fields of a record that should hold a list are absent, null, or
lists. -/
def IsTreeNode (d : Document) : Prop :=
  IsBasicNode d ∧ ∀ entries, d = .map entries → HasListFields entries

theorem isTreeNode_of_ne_map {d : Document} (h : IsBasicNode d)
    (hmap : ∀ entries, d ≠ .map entries) : IsTreeNode d :=
  ⟨h, fun entries heq => absurd heq (hmap entries)⟩

theorem isTreeNode_nil : IsTreeNode (.list []) := isTreeNode_of_ne_map trivial (by simp)

/-- A record of documents whose list fields are absent, null or lists. -/
theorem everywhere_record {fields : List (String × Document)}
    (hlists : ∀ e ∈ listFields, fields.lookup e.2 = none ∨ fields.lookup e.2 = some .null ∨
      ∃ items, fields.lookup e.2 = some (.list items))
    (hfields : ∀ f ∈ fields, f.2.Everywhere IsTreeNode) :
    (record fields).Everywhere IsTreeNode := by
  refine ⟨⟨trivial, ?_⟩, ?_⟩
  · rintro entries ⟨⟩ tag field hmem -
    have hfield := field?_record field fields
    rcases hlists _ hmem with h | h | ⟨items, h⟩
    · exact ⟨_, .absent (hfield.trans h)⟩
    · exact ⟨_, .null (hfield.trans h)⟩
    · exact ⟨_, .list (hfield.trans h)⟩
  · clear hlists
    induction fields with
    | nil => trivial
    | cons f fields ih =>
      obtain ⟨hf, hfields⟩ := List.forall_mem_cons.mp hfields
      exact ⟨isTreeNode_of_ne_map trivial (by simp), hf, ih hfields⟩

theorem PartsHave.imp {table : Array Document} {p q : Document → Prop}
    {entries : List (Document × Document)} (h : PartsHave table p entries)
    (hpq : ∀ d, p d → q d) : PartsHave table q entries where
  field hf := hpq _ (h.field hf)
  list hf hlist := ⟨hpq _ (h.list hf hlist).1, fun x hx => hpq x ((h.list hf hlist).2 x hx)⟩
  empty := hpq _ h.empty

/-- A record is read by its tag, and refused if it has none. -/
theorem decodeAt_map_eq_ok_iff {table : Array Document} {depth : Nat} {d : Document}
    {entries : List (Document × Document)} {e? : Option Expr}
    (hd : Data.follow table d = .map entries) :
    decodeAt table (depth + 1) d = .ok e? ↔
      ∃ tag, HasTag entries tag ∧ tagged table (decodeAt table depth) entries tag = .ok e? := by
  have hnone (hno : ∀ tag, ¬HasTag entries tag) (f : TreeFault) : .error f = (.ok e? : Decoded) ↔
      ∃ tag, HasTag entries tag ∧ tagged table (decodeAt table depth) entries tag = .ok e? := by
    simp [hno]
  have hsome {tag : String} (htag : HasTag entries tag) :
      tagged table (decodeAt table depth) entries tag = .ok e? ↔
        ∃ tag, HasTag entries tag ∧ tagged table (decodeAt table depth) entries tag = .ok e? := by
    refine ⟨fun h => ⟨tag, htag, h⟩, ?_⟩
    rintro ⟨tag', htag', h⟩
    exact htag.unique htag' ▸ h
  unfold decodeAt
  rw [hd]
  dsimp only
  split
  · next htag => exact hnone (fun tag h => h.field?_ne_none htag) _
  · next htag => exact hsome (.null htag)
  · next t htag =>
    split
    · next tag ht => exact hsome (.text (Text.eq_ofString_of_toString? ht ▸ htag))
    · next ht =>
      refine hnone (fun tag h => ?_) _
      cases h with
      | text h =>
        cases htag.symm.trans h
        rw [Text.toString?_ofString] at ht
        cases ht
      | null h => cases htag.symm.trans h
  · next d hnull htext htag =>
    refine hnone (fun tag h => ?_) _
    cases h with
    | text h => exact htext _ (Option.some.inj (htag.symm.trans h))
    | null h => exact hnull (Option.some.inj (htag.symm.trans h))

/-- The decoder accepts the documents that derive, if there are levels enough for them. -/
theorem agrees_decodeAt (table : Array Document) (depth : Nat) :
    ∀ d : Document, FitsIn IsTreeNode depth d → Agrees (decodeAt table depth) d := by
  induction depth with
  | zero => exact fun d hd => absurd hd.2 (Nat.not_le.mpr (Yaml.height_pos d))
  | succ depth ih =>
    intro d hd e?
    have hbasic : IsBasicNode d := hd.1.self.1
    cases d with
    | list items =>
      have hitems : ∀ x ∈ items, Agrees (decodeAt table depth) x := fun x hx =>
        ih x (hd.of_mem x hx)
      rw [denotes_list_iff]
      constructor
      · intro h
        obtain ⟨es, hes, h⟩ := bind_eq_ok.mp h
        cases h
        exact ⟨es, (statements_iff hitems).mp hes, rfl⟩
      · rintro ⟨es, hes, rfl⟩
        exact bind_eq_ok.mpr ⟨es, (statements_iff hitems).mpr hes, rfl⟩
    | null =>
      constructor
      · intro h
        cases h
        exact .null
      · intro h
        cases h
        rfl
    | bool b =>
      constructor
      · intro h
        cases h
        exact .bool b
      · intro h
        cases h
        rfl
    | int n =>
      constructor
      · intro h
        obtain ⟨e, he, h⟩ := bind_eq_ok.mp h
        obtain ⟨n', heq, hn, rfl⟩ := intLiteral_eq_ok_iff.mp he
        cases heq
        cases h
        exact .int hn
      · intro h
        cases h with
        | int hn => exact bind_eq_ok.mpr ⟨_, intLiteral_eq_ok_iff.mpr ⟨n, rfl, hn, rfl⟩, rfl⟩
    | real | text =>
      constructor
      · intro h
        cases h
      · intro h
        cases h
    | map entries =>
      have hlists := hd.1.self.2 entries rfl
      have hparts {tag : String} (htag : HasTag entries tag) :
          PartsHave table (FitsIn IsTreeNode depth) entries :=
        FitsIn.partsHave (p := IsTreeNode) (fun _ => And.left) isTreeNode_nil hd
          htag.field?_ne_none
      have hop {tag : String} (htag : HasTag entries tag) :
          ∀ d, field? "op" entries = some d → IsBasicNode d := fun d hd =>
        ((hparts htag).field hd).1.self.1
      rw [decodeAt_map_eq_ok_iff rfl]
      constructor
      · rintro ⟨tag, htag, h⟩
        exact denotes_of_tagged htag ((hparts htag).imp ih) (hop htag) hlists h
      · intro h
        obtain ⟨tag, htag⟩ := h.hasTag
        exact ⟨tag, htag, tagged_of_denotes htag ((hparts htag).imp ih) (hop htag) h⟩
    | _ => exact hbasic.elim

mutual

/-- A document that is basic everywhere holds no built expression. -/
theorem plain_of_everywhere : ∀ d : Document, d.Everywhere IsBasicNode → d.Plain
  | .list items, h | .tuple items, h | .set items, h => plainItems_of_everywhere items h.2
  | .map entries, h => plainEntries_of_everywhere entries h.2
  | .node _, h => h
  | .null, _ | .bool _, _ | .int _, _ | .real _, _ | .text _, _ | .bytes _, _ | .date _, _
  | .moment _, _ | .link _, _ => trivial

theorem plainItems_of_everywhere : ∀ ds : List Document, EverywhereItems IsBasicNode ds →
    PlainItems ds
  | [], _ => trivial
  | d :: ds, h => ⟨plain_of_everywhere d h.1, plainItems_of_everywhere ds h.2⟩

theorem plainEntries_of_everywhere : ∀ entries : List (Document × Document),
    EverywhereEntries IsBasicNode entries → PlainEntries entries
  | [], _ => trivial
  | (key, value) :: entries, h =>
    ⟨plain_of_everywhere key h.1, plain_of_everywhere value h.2.1,
      plainEntries_of_everywhere entries h.2.2⟩

end

/-- **The decoder accepts exactly the documents that derive.** Where there are levels enough for a
basic document, and its list fields are absent, null or lists, the decoder gives what the document
denotes, which is a well-formed expression or nothing, and refuses it as malformed if it denotes
nothing at all. -/
theorem decode_iff_denotes {d : Document} {depth : Nat} (hd : d.Everywhere IsTreeNode)
    (hheight : Yaml.height d ≤ depth) :
    (∀ e?, decode depth ↑d = .ok e? ↔ Denotes d e?) ∧
    ((∀ e?, ¬Denotes d e?) → ∃ f, decode depth ↑d = .error f ∧ f.IsMalformed) ∧
    ∀ e, Denotes d (some e) → e.WellFormed := by
  have hbasic : d.Everywhere IsBasicNode := Everywhere.imp (fun _ => And.left) d hd
  have hagree : ∀ e?, decode depth ↑d = .ok e? ↔ Denotes d e? :=
    agrees_decodeAt #[] depth d ⟨hd, hheight⟩
  have hempty {p : Document → Prop} : ∀ c ∈ (#[] : Array Document), p c := by
    simp
  refine ⟨hagree, fun hno => ?_, fun e he => ?_⟩
  · cases hdecode : decode depth ↑d with
    | ok e? => exact absurd ((hagree e?).mp hdecode) (hno e?)
    | error f =>
      exact ⟨f, rfl, (isMalformed_of_decodeAt hempty depth d ⟨hbasic, hheight⟩).of_error hdecode⟩
  · have hplain : Data.Plain d := ⟨plain_of_everywhere d hbasic, hempty⟩
    exact wellFormed_of_decode hplain ((hagree _).mpr he)

/-- A null among the statements, one among the arguments, and a block of nulls as a child. -/
theorem decode_iff_denotes_nulls :
    let call : Document := record [("tag", text "call"),
      ("func", record [("tag", text "var"), ("name", text "f")]), ("args", list [null, .bool true])]
    let d : Document := list [null, list [], call, record [("tag", null)]]
    let d' : Document := record [("tag", text "print"), ("expr", list [null])]
    d.Everywhere IsTreeNode ∧ Yaml.height d ≤ 400 ∧ d'.Everywhere IsTreeNode ∧
      Yaml.height d' ≤ 400 ∧
      Denotes d (some (.seq (.call (.var "f") [.literal .null, .literal (.bool true)])
        (.literal .null))) ∧ ∃ f, decode 400 ↑d' = .error f ∧ f.IsMalformed := by
  intro call d d'
  have hnull : Everywhere IsTreeNode null := isTreeNode_of_ne_map trivial (by simp)
  have htext (t : Text) : Everywhere IsTreeNode (text t) := isTreeNode_of_ne_map trivial (by simp)
  have hbool : Everywhere IsTreeNode (.bool true) := isTreeNode_of_ne_map trivial (by simp)
  have hlist (items : List Document) (h : EverywhereItems IsTreeNode items) :
      (list items).Everywhere IsTreeNode := ⟨isTreeNode_of_ne_map trivial (by simp), h⟩
  have hvar : (record [("tag", text "var"), ("name", text "f")]).Everywhere IsTreeNode :=
    everywhere_record (by simp [listFields, List.lookup_cons]) (by simp [htext])
  have hcall : call.Everywhere IsTreeNode :=
    everywhere_record (by simp [listFields, List.lookup_cons])
      (by simpa [htext, hvar] using hlist [null, .bool true] ⟨hnull, hbool, trivial⟩)
  have hnone : (record [("tag", null)]).Everywhere IsTreeNode :=
    everywhere_record (by simp [listFields, List.lookup_cons]) (by simpa using hnull)
  have hd : d.Everywhere IsTreeNode := hlist _ ⟨hnull, hlist [] trivial, hcall, hnone, trivial⟩
  have hd' : d'.Everywhere IsTreeNode :=
    everywhere_record (by simp [listFields, List.lookup_cons])
      (by simpa [htext] using hlist [null] ⟨hnull, trivial⟩)
  have hheight : Yaml.height d ≤ 400 := by decide
  have hheight' : Yaml.height d' ≤ 400 := by decide
  refine ⟨hd, hheight, hd', hheight', ?_, ?_⟩
  · exact ((decode_iff_denotes hd hheight).1 _).mp rfl
  · obtain ⟨haccepts, hrefuses, -⟩ := decode_iff_denotes hd' hheight'
    refine hrefuses fun e? h => ?_
    cases (haccepts e?).mpr h

end Treewalk.Tree
