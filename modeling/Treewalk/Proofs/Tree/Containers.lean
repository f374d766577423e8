import Mathlib.Logic.Relation
import Treewalk.Proofs.Tree.Acceptance

/-!
# Which containers are read

Reading a document visits the document itself and the parts that describe its nodes. At each of them
the list fields are looked at: one that is absent or counts as empty is read as no list at all, and
any other value has to be a list. So if a document is read, then at every document that was visited
the list fields are absent, empty or lists (`readsLists_of_visits`).
-/

namespace Treewalk.Tree

open Document

/-- The fields of a record that hold a child, by tag. -/
def childFields : List (String × String) :=
  [("seq", "first"), ("seq", "second"), ("vardecl", "expr"), ("assign", "expr"), ("binop", "left"),
    ("binop", "right"), ("if", "cond"), ("if", "then"), ("if", "else"), ("while", "cond"),
    ("while", "body"), ("print", "expr"), ("function", "body"), ("call", "func")]

variable (table : Array Document)

/-- Whether reading a document reads another one as a part of it. -/
inductive VisitsPart : Document → Document → Prop where
  /-- A statement of a list. -/
  | item {d items x} : Data.follow table d = .list items → x ∈ items → x ≠ .null → VisitsPart d x
  /-- The list of a block. -/
  | body {d entries tag v items} : Data.follow table d = .map entries → HasTag entries tag →
    tag = "block" ∨ tag = "program" → field? "body" entries = some v →
    Data.follow table v = .list items → VisitsPart d (.list items)
  /-- A child of a record. -/
  | child {d entries tag field x} : Data.follow table d = .map entries → HasTag entries tag →
    (tag, field) ∈ childFields → field? field entries = some x → x ≠ .null → VisitsPart d x
  /-- An argument of a call. -/
  | arg {d entries v items x} : Data.follow table d = .map entries → HasTag entries "call" →
    field? "args" entries = some v → Data.follow table v = .list items → x ∈ items →
    VisitsPart d x

/-- Whether reading a document reads another one somewhere. -/
def Visits : Document → Document → Prop := Relation.ReflTransGen (VisitsPart table)

/-- Whether the list fields of a record are absent, count as empty, or are lists. -/
def ReadsLists (d : Document) : Prop :=
  ∀ entries, Data.follow table d = .map entries → ∀ tag field, (tag, field) ∈ listFields →
    HasTag entries tag → ∀ v, field? field entries = some v →
      v.isEmpty = true ∨ ∃ items, Data.follow table v = .list items

variable {table} {child : Document → Decoded} {entries : List (Document × Document)}
  {tag field : String} {d x v : Document} {items : List Document} {e? : Option Expr}

/-! ## What was read of a record -/

theorem isEmpty_or_list_of_listField {fault : TreeFault}
    (h : listField table fault entries field = .ok items) (hv : field? field entries = some v) :
    v.isEmpty = true ∨ ∃ items, Data.follow table v = .list items := by
  rcases listField_eq_ok_iff.mp h with ⟨hfield, -⟩ | ⟨d, hfield, ⟨hempty, -⟩ | ⟨-, hlist⟩⟩
  · cases hfield.symm.trans hv
  · cases hfield.symm.trans hv
    exact .inl hempty
  · cases hfield.symm.trans hv
    exact .inr ⟨_, hlist⟩

theorem child_of_requiredExpr {e : Expr} (h : requiredExpr child tag entries field = .ok e)
    (hx : field? field entries = some x) : ∃ e?, child x = .ok e? := by
  obtain ⟨d, ⟨hfield, -⟩, he⟩ := requiredExpr_eq_ok_iff.mp h
  cases hfield.symm.trans hx
  exact ⟨some e, he⟩

theorem child_of_block {b : Option Expr} (h : block child entries field = .ok b)
    (hx : field? field entries = some x) (hnull : x ≠ .null) : ∃ e?, child x = .ok e? := by
  rcases block_eq_ok_iff.mp h with ⟨hfield, -⟩ | ⟨hfield, -⟩ | ⟨d, ⟨hfield, -⟩, hread⟩
  · cases hfield.symm.trans hx
  · exact absurd (Option.some.inj (hfield.symm.trans hx)).symm hnull
  · cases hfield.symm.trans hx
    exact ⟨b, hread⟩

theorem child_of_statements {es : List Expr} (h : statements child items = .ok es) (hx : x ∈ items)
    (hnull : x ≠ .null) : ∃ e?, child x = .ok e? := by
  induction items generalizing es with
  | nil => cases hx
  | cons d items ih =>
    by_cases hd : d = .null
    · subst hd
      rcases List.mem_cons.mp hx with rfl | hx
      · exact absurd rfl hnull
      · exact ih h hx
    · obtain ⟨e?, rest, he, hrest, -⟩ := (statements_cons_eq_ok_iff hd).mp h
      rcases List.mem_cons.mp hx with rfl | hx
      · exact ⟨e?, he⟩
      · exact ih hrest hx

theorem child_of_arguments {es : List Expr} (h : arguments child items = .ok es) (hx : x ∈ items) :
    ∃ e?, child x = .ok e? := by
  induction items generalizing es with
  | nil => cases hx
  | cons d items ih =>
    obtain ⟨e, rest, he, hrest, -⟩ := arguments_cons_eq_ok_iff.mp h
    rcases List.mem_cons.mp hx with rfl | hx
    · exact ⟨some e, he⟩
    · exact ih hrest hx

/-- The list of a block that was read was read. -/
theorem list_of_block (hblock : tag = "block" ∨ tag = "program")
    (h : tagged table child entries tag = .ok e?) :
    ∃ fault items, listField table fault entries "body" = .ok items ∧
      child (.list items) = .ok e? := by
  cases tagged_eq_ok_iff.mp h with
  | block _ hitems hread => exact ⟨_, _, hitems, hread⟩
  | _ => simp at hblock

/-- The arguments of a call that was read were read. -/
theorem arguments_of_call (hcall : tag = "call") (h : tagged table child entries tag = .ok e?) :
    ∃ items args, listField table .argsNotAList entries "args" = .ok items ∧
      arguments child items = .ok args := by
  cases tagged_eq_ok_iff.mp h with
  | call hitems hargs _ => exact ⟨_, _, hitems, hargs⟩
  | block hblock => simp [hcall] at hblock
  | _ => simp at hcall

/-- The list fields of a record that was read were read. -/
theorem listField_of_tagged (h : tagged table child entries tag = .ok e?)
    (hmem : (tag, field) ∈ listFields) :
    ∃ fault items, listField table fault entries field = .ok items := by
  cases tagged_eq_ok_iff.mp h with
  | block hblock hitems _ =>
    have hfield : field = "body" := by
      rcases hblock with rfl | rfl <;> simpa [listFields] using hmem
    exact ⟨_, _, hfield ▸ hitems⟩
  | func hitems _ _ =>
    have hfield : field = "params" := by simpa [listFields] using hmem
    exact ⟨_, _, hfield ▸ hitems⟩
  | call hitems _ _ =>
    have hfield : field = "args" := by simpa [listFields] using hmem
    exact ⟨_, _, hfield ▸ hitems⟩
  | _ => simp [listFields] at hmem

/-- The children of a record that was read were read. -/
theorem child_of_tagged (h : tagged table child entries tag = .ok e?)
    (hmem : (tag, field) ∈ childFields) (hx : field? field entries = some x) (hnull : x ≠ .null) :
    ∃ e?, child x = .ok e? := by
  cases tagged_eq_ok_iff.mp h with
  | seq hfirst hsecond =>
    obtain rfl | rfl : field = "first" ∨ field = "second" := by simpa [childFields] using hmem
    · exact child_of_requiredExpr hfirst hx
    · exact child_of_requiredExpr hsecond hx
  | decl _ hexpr | assign _ hexpr | print hexpr =>
    obtain rfl : field = "expr" := by simpa [childFields] using hmem
    exact child_of_requiredExpr hexpr hx
  | binop _ _ hleft hright =>
    obtain rfl | rfl : field = "left" ∨ field = "right" := by simpa [childFields] using hmem
    · exact child_of_requiredExpr hleft hx
    · exact child_of_requiredExpr hright hx
  | cond _ htest hthn hels =>
    obtain rfl | rfl | rfl : field = "cond" ∨ field = "then" ∨ field = "else" := by
      simpa [childFields] using hmem
    · exact child_of_requiredExpr htest hx
    · exact child_of_block hthn hx hnull
    · exact child_of_block hels hx hnull
  | loop _ htest hbody =>
    obtain rfl | rfl : field = "cond" ∨ field = "body" := by simpa [childFields] using hmem
    · exact child_of_requiredExpr htest hx
    · exact child_of_block hbody hx hnull
  | func _ _ hbody =>
    obtain rfl : field = "body" := by simpa [childFields] using hmem
    exact child_of_block hbody hx hnull
  | call _ _ hcallee =>
    obtain rfl : field = "func" := by simpa [childFields] using hmem
    exact child_of_requiredExpr hcallee hx
  | block hblock => rcases hblock with rfl | rfl <;> simp [childFields] at hmem
  | _ => simp [childFields] at hmem

/-! ## What was read of a document -/

/-- A record that was read was read by its tag. -/
theorem tagged_of_decodeAt {depth : Nat} (h : decodeAt table (depth + 1) d = .ok e?)
    (hentries : Data.follow table d = .map entries) (htag : HasTag entries tag) :
    tagged table (decodeAt table depth) entries tag = .ok e? := by
  obtain ⟨tag', htag', h⟩ := (decodeAt_map_eq_ok_iff hentries).mp h
  exact htag'.unique htag ▸ h

/-- A document that was read has its list fields in order. -/
theorem readsLists_of_decodeAt {depth : Nat} (h : decodeAt table depth d = .ok e?) :
    ReadsLists table d := by
  cases depth with
  | zero => cases h
  | succ depth =>
    intro entries hentries tag field hmem htag v hv
    obtain ⟨fault, items, hitems⟩ := listField_of_tagged (tagged_of_decodeAt h hentries htag) hmem
    exact isEmpty_or_list_of_listField hitems hv

/-- The parts of a document that was read were read. -/
theorem decodeAt_of_visitsPart {depth : Nat} (h : decodeAt table depth d = .ok e?)
    (hvisits : VisitsPart table d x) : ∃ depth' e?, decodeAt table depth' x = .ok e? := by
  cases depth with
  | zero => cases h
  | succ depth =>
    refine ⟨depth, ?_⟩
    cases hvisits with
    | item hlist hx hnull =>
      unfold decodeAt at h
      rw [hlist] at h
      obtain ⟨es, hes, -⟩ := bind_eq_ok.mp h
      exact child_of_statements hes hx hnull
    | body hentries htag hblock hv hlist =>
      obtain ⟨fault, items, hitems, hread⟩ :=
        list_of_block hblock (tagged_of_decodeAt h hentries htag)
      cases hitems.symm.trans (listField_of_follow hv hlist)
      exact ⟨e?, hread⟩
    | child hentries htag hmem hx hnull =>
      exact child_of_tagged (tagged_of_decodeAt h hentries htag) hmem hx hnull
    | arg hentries htag hv hlist hx =>
      obtain ⟨items, args, hitems, hargs⟩ :=
        arguments_of_call rfl (tagged_of_decodeAt h hentries htag)
      cases hitems.symm.trans (listField_of_follow hv hlist)
      exact child_of_arguments hargs hx

/-- Every document that was visited was read. -/
theorem decodeAt_of_visits {depth : Nat} (h : decodeAt table depth d = .ok e?)
    (hvisits : Visits table d x) : ∃ depth' e?, decodeAt table depth' x = .ok e? := by
  induction hvisits with
  | refl => exact ⟨depth, e?, h⟩
  | tail _ hpart ih =>
    obtain ⟨depth', e?', hread⟩ := ih
    exact decodeAt_of_visitsPart hread hpart

/-- **Where data are read as a tree, every list field was looked at.** At every document that is
visited on the way, the list fields are absent, count as empty, or are lists. So a basic document is
refused as malformed if any of the documents in it that are visited has another value there. -/
theorem readsLists_of_visits (data : Data) (depth : Nat) :
    (∀ e? : Option Expr, decode depth data = .ok e? →
      ∀ x, Visits data.table data.root x → ReadsLists data.table x) ∧
    (data.table = #[] → data.root.Everywhere IsBasicNode → Yaml.height data.root ≤ depth →
      ∀ x, Visits data.table data.root x → ¬ReadsLists data.table x →
        ∃ f, decode depth data = .error f ∧ f.IsMalformed) := by
  have hreads : ∀ e? : Option Expr, decode depth data = .ok e? →
      ∀ x, Visits data.table data.root x → ReadsLists data.table x := by
    intro e? h x hvisits
    obtain ⟨depth', e?', hread⟩ := decodeAt_of_visits h hvisits
    exact readsLists_of_decodeAt hread
  refine ⟨hreads, fun htable hd hheight x hvisits hx => ?_⟩
  cases hdecode : decode depth data with
  | ok e? => exact absurd (hreads e? hdecode x hvisits) hx
  | error f =>
    have hempty : ∀ c ∈ data.table, c.Everywhere IsShort := by
      simp [htable]
    exact ⟨f, rfl, (isMalformed_of_decodeAt hempty depth data.root ⟨hd, hheight⟩).of_error hdecode⟩

/-- A text as the arguments of a call inside a block, and a zero as the body of a block, which is
taken for no body. -/
theorem readsLists_of_visits_text :
    let call : Document := record [("tag", text "call"), ("func", null), ("args", text "a")]
    let d : Document := record [("tag", text "block"), ("body", list [call])]
    let zero : Document := record [("tag", text "block"), ("body", int 0)]
    d.Everywhere IsBasicNode ∧ Yaml.height d ≤ 400 ∧ Visits #[] d call ∧ ¬ReadsLists #[] call ∧
      (∃ f, decode 400 ↑d = .error f ∧ f.IsMalformed) ∧
      decode 400 ↑zero = .ok none ∧ ReadsLists #[] zero := by
  intro call d zero
  have hd : d.Everywhere IsBasicNode := by
    simp [d, call, record, Everywhere, EverywhereItems, EverywhereEntries, IsBasicNode]
  have hheight : Yaml.height d ≤ 400 := by decide
  have hvisits : Visits #[] d call := by
    have hbody : VisitsPart #[] d (list [call]) := by
      refine .body rfl ?_ (.inl rfl) (field?_record "body" _) rfl
      exact .text (field?_record "tag" _)
    exact .tail (.single hbody) (.item rfl (List.mem_singleton.mpr rfl) (by simp [call, record]))
  have hcall : ¬ReadsLists #[] call := by
    intro h
    rcases h _ rfl "call" "args" (by decide) (.text rfl) _ rfl with h | ⟨items, h⟩
    · cases h
    · cases h
  have hzero : decode 400 ↑zero = .ok none := rfl
  obtain ⟨-, hrefuses⟩ := readsLists_of_visits d 400
  obtain ⟨hreads, -⟩ := readsLists_of_visits zero 400
  exact ⟨hd, hheight, hvisits, hcall, hrefuses rfl hd hheight call hvisits hcall, hzero,
    hreads none hzero zero .refl⟩

end Treewalk.Tree
