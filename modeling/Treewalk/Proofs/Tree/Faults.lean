import Treewalk.Proofs.Document.Everywhere
import Treewalk.Proofs.Document.Shape
import Treewalk.Proofs.Outcome
import Treewalk.Proofs.Tree.WellFormed

/-!
# Faults of the decoder

Every fault of the decoder shows a part of the data at most. So a document whose integers have few
digits is refused with a fault that can be reported, and one that is no higher than the decoder goes
is never found to be too deep (`isMalformed_of_decodeAt`).

The readers of a record are followed once, with any kind of fault that they may fail with
(`FailsWith`): what they say themselves, and what the reader of children says about parts.
-/

namespace Treewalk

open Document

/-- Whether a fault shows only data with a property, and is no fault of the depth or of encoding. -/
def TreeFault.Shows (table : Array Document) (p : Document → Prop) : TreeFault → Prop
  | notAnInt given | notABool given | unexpected given | noTag given | unknownTag given
  | unknownOperator given => given.table = table ∧ p given.root
  | intOutOfRange n => p (.int n)
  | tooDeep | notEncodable _ => False
  | _ => True

/-- Whether a fault says that a document is malformed, and can be shown. -/
def TreeFault.IsMalformed (f : TreeFault) : Prop := f ≠ .tooDeep ∧ f.isShowable = true

theorem TreeFault.Shows.isMalformed {table : Array Document} {f : TreeFault}
    (ht : ∀ c ∈ table, c.Everywhere IsShort) (h : f.Shows table (Everywhere IsShort)) :
    f.IsMalformed := by
  cases f with
  | notAnInt given | notABool given | unexpected given | noTag given | unknownTag given
  | unknownOperator given =>
    obtain ⟨root, table'⟩ := given
    obtain ⟨rfl, hroot⟩ := h
    exact ⟨by simp, Data.isShowable_of_everywhere ht hroot⟩
  | intOutOfRange n => exact ⟨by simp, h⟩
  | tooDeep | notEncodable => exact h.elim
  | _ => exact ⟨by simp, rfl⟩

namespace Tree

/-! ## Readers that fail -/

/-- Whether a reader fails with faults of a kind only. -/
abbrev FailsWith (P : TreeFault → Prop) {α : Type} (x : Except TreeFault α) : Prop :=
  Meets P (fun _ => True) x

/-! ## The readers of records -/

/-- Whether the parts of a record that may be read have a property: its fields, and the lists in
its fields with their items. -/
structure PartsHave (table : Array Document) (p : Document → Prop)
    (entries : List (Document × Document)) : Prop where
  field : ∀ {name d}, field? name entries = some d → p d
  list : ∀ {name d items}, field? name entries = some d → Data.follow table d = .list items →
    p (.list items) ∧ ∀ x ∈ items, p x
  empty : p (.list [])

section

variable {P : TreeFault → Prop} {p q : Document → Prop} {table : Array Document}
  {child : Document → Decoded} {entries : List (Document × Document)} {tag field : String}

/-- The items of a list field are parts of the record. -/
theorem PartsHave.of_listField (hparts : PartsHave table p entries) {fault : TreeFault}
    {items : List Document} (h : listField table fault entries field = .ok items) :
    p (.list items) ∧ ∀ x ∈ items, p x := by
  rcases listField_eq_ok_iff.mp h with ⟨-, rfl⟩ | ⟨d, hfield, ⟨-, rfl⟩ | ⟨-, hlist⟩⟩
  · exact ⟨hparts.empty, List.forall_mem_nil _⟩
  · exact ⟨hparts.empty, List.forall_mem_nil _⟩
  · exact hparts.list hfield hlist

theorem failsWith_block (hchild : ∀ d, p d → FailsWith P (child d))
    (hparts : PartsHave table p entries) : FailsWith P (block child entries field) := by
  unfold block
  split
  · trivial
  · trivial
  · next hf => exact hchild _ (hparts.field hf)

theorem failsWith_statements (hchild : ∀ d, p d → FailsWith P (child d)) {ds : List Document}
    (hds : ∀ d ∈ ds, p d) : FailsWith P (statements child ds) := by
  induction ds with
  | nil => trivial
  | cons d ds ih =>
    obtain ⟨hd, hrest⟩ := List.forall_mem_cons.mp hds
    unfold statements
    split
    · trivial
    · next heq =>
      cases heq
      exact ih hrest
    · next heq =>
      cases heq
      exact .bind (hchild d hd) fun _ _ => .bind (ih hrest) fun _ _ => trivial

variable (hP : ∀ f : TreeFault, f.Shows table q → P f)

include hP

theorem meets_required :
    Meets P (fun d => field? field entries = some d) (required tag entries field) := by
  unfold required
  split
  · exact hP _ trivial
  · exact hP _ trivial
  · next hf => exact hf

theorem failsWith_requiredName : FailsWith P (requiredName tag entries) := by
  refine (meets_required hP).bind fun d _ => ?_
  split
  · split
    · exact hP _ trivial
    · trivial
  · exact hP _ trivial

theorem failsWith_paramNames (ds : List Document) : FailsWith P (paramNames ds) := by
  induction ds with
  | nil => trivial
  | cons d ds ih =>
    cases d with
    | text t =>
      simp only [paramNames]
      split
      · exact hP _ trivial
      · split
        · trivial
        · next h => exact ih.of_error h
    | _ => exact hP _ trivial

theorem failsWith_intLiteral {d : Document} (hd : q d) : FailsWith P (intLiteral table d) := by
  unfold intLiteral
  split
  · split
    · trivial
    · exact hP _ hd
  · exact hP _ ⟨rfl, hd⟩

/-- The items of a list field are parts of the record. -/
theorem meets_listField (hparts : PartsHave table p entries) {fault : TreeFault}
    (hfault : fault.Shows table q) :
    Meets P (fun items => p (.list items) ∧ ∀ x ∈ items, p x)
      (listField table fault entries field) := by
  cases h : listField table fault entries field with
  | ok items => exact hparts.of_listField h
  | error f =>
    unfold listField at h
    split at h
    · cases h
    · split at h
      · cases h
      · split at h
        · cases h
        · cases h
          exact hP _ hfault

variable (hchild : ∀ d, p d → FailsWith P (child d))

include hchild

theorem failsWith_arguments {ds : List Document} (hds : ∀ d ∈ ds, p d) :
    FailsWith P (arguments child ds) := by
  induction ds with
  | nil => trivial
  | cons d ds ih =>
    obtain ⟨hd, hds⟩ := List.forall_mem_cons.mp hds
    refine .bind (hchild d hd) fun e? _ => ?_
    cases e? with
    | none => exact hP _ trivial
    | some e => exact .bind (ih hds) fun _ _ => trivial

theorem failsWith_requiredExpr (hparts : PartsHave table p entries) :
    FailsWith P (requiredExpr child tag entries field) := by
  refine (meets_required hP).bind fun d hd => ?_
  refine .bind (hchild d (hparts.field hd)) fun e? _ => ?_
  cases e? with
  | none => exact hP _ trivial
  | some e => trivial

/-- What a tag makes of a record fails as the readers of its parts do. -/
theorem failsWith_tagged (hparts : PartsHave table p entries) (hpq : ∀ d, p d → q d)
    (htext : ∀ t, q (.text t)) : FailsWith P (tagged table child entries tag) := by
  have hrequired {tag field : String} : Meets P q (required tag entries field) :=
    (meets_required hP).imp (fun _ => id) fun d hd => hpq d (hparts.field hd)
  have hlist {field : String} {fault : TreeFault} (hfault : fault.Shows table q) :
      Meets P (fun items => p (.list items) ∧ ∀ x ∈ items, p x)
        (listField table fault entries field) :=
    meets_listField hP hparts hfault
  have hexpr {tag field : String} : FailsWith P (requiredExpr child tag entries field) :=
    failsWith_requiredExpr hP hchild hparts
  have hblock {field : String} : FailsWith P (block child entries field) :=
    failsWith_block hchild hparts
  unfold tagged
  split
  · -- int
    exact hrequired.bind fun d hd => .bind (failsWith_intLiteral hP hd) fun _ _ => trivial
  · -- bool
    refine hrequired.bind fun d hd => ?_
    split
    · trivial
    · exact hP _ ⟨rfl, hd⟩
  · -- null
    trivial
  · -- program
    exact .bind (hlist trivial) fun items hitems => hchild _ hitems.1
  · -- block
    exact .bind (hlist trivial) fun items hitems => hchild _ hitems.1
  · -- seq
    exact .bind hexpr fun _ _ => .bind hexpr fun _ _ => trivial
  · -- var
    exact .bind (failsWith_requiredName hP) fun _ _ => trivial
  · -- vardecl
    exact .bind (failsWith_requiredName hP) fun _ _ => .bind hexpr fun _ _ => trivial
  · -- assign
    exact .bind (failsWith_requiredName hP) fun _ _ => .bind hexpr fun _ _ => trivial
  · -- binop
    refine hrequired.bind fun d hd => ?_
    split
    · exact hP _ ⟨rfl, hd⟩
    · exact .bind hexpr fun _ _ => .bind hexpr fun _ _ => trivial
  · -- if
    split
    · exact hP _ trivial
    · exact .bind hexpr fun _ _ => .bind hblock fun _ _ => .bind hblock fun _ _ => trivial
  · -- while
    split
    · exact hP _ trivial
    · exact .bind hexpr fun _ _ => .bind hblock fun _ _ => trivial
  · -- print
    exact .bind hexpr fun _ _ => trivial
  · -- function
    refine .bind (hlist trivial) fun _ _ => ?_
    exact .bind (failsWith_paramNames hP _) fun _ _ => .bind hblock fun _ _ => trivial
  · -- call
    refine .bind (hlist trivial) fun items hitems => ?_
    refine .bind (failsWith_arguments hP hchild hitems.2) fun _ _ => ?_
    exact .bind hexpr fun _ _ => trivial
  · exact hP _ ⟨rfl, htext _⟩

end

/-! ## The decoder -/

variable {P : TreeFault → Prop} {p q : Document → Prop} {table : Array Document} {depth : Nat}
  {d : Document}

/-- One level of the decoder fails as the levels below it do on the parts of the document. -/
theorem failsWith_decodeAt_succ (hP : ∀ f : TreeFault, f.Shows table q → P f)
    (hchild : ∀ d, p d → FailsWith P (decodeAt table depth d)) (hpq : ∀ d, p d → q d)
    (htext : ∀ t, q (.text t)) (hself : q d ∧ q (Data.follow table d))
    (hlist : ∀ items, Data.follow table d = .list items → ∀ x ∈ items, p x)
    (hmap : ∀ entries, Data.follow table d = .map entries → field? "tag" entries ≠ none →
      PartsHave table p entries) : FailsWith P (decodeAt table (depth + 1) d) := by
  unfold decodeAt
  split
  · next items hd => exact .bind (failsWith_statements hchild (hlist items hd)) fun _ _ => trivial
  · trivial
  · trivial
  · next n hd => exact .bind (failsWith_intLiteral hP (hd ▸ hself.2)) fun _ _ => trivial
  · trivial
  · next entries hd =>
    have hparts := hmap entries hd
    split
    · exact hP _ ⟨rfl, hself.1⟩
    · next htag =>
      exact failsWith_tagged hP hchild (hparts (by rw [htag]; simp)) hpq htext
    · next htag =>
      split
      · exact failsWith_tagged hP hchild (hparts (by rw [htag]; simp)) hpq htext
      · exact hP _ ⟨rfl, htext _⟩
    · next tag _ _ htag =>
      exact hP _ ⟨rfl, hpq _ ((hparts (by rw [htag]; simp)).field htag)⟩
  · exact hP _ ⟨rfl, hself.1⟩

/-- Whether a document is null, a truth value, an integer with few digits, a number, a text, a list
or a mapping. -/
def IsBasicNode : Document → Prop
  | .null | .bool _ | .real _ | .text _ | .list _ | .map _ => True
  | .int n => Number.hasFewDigits n = true
  | _ => False

theorem IsBasicNode.isShort {d : Document} (h : IsBasicNode d) : IsShort d := by
  cases d with
  | int n => exact h
  | _ => trivial

/-- A basic document is no link. -/
theorem follow_of_isBasicNode (h : IsBasicNode d) : Data.follow table d = d := by
  cases d with
  | link place => exact h.elim
  | _ => rfl

/-- Whether a document has a property with all its parts, and is no higher than a number of levels.
-/
def FitsIn (p : Document → Prop) (depth : Nat) (d : Document) : Prop :=
  d.Everywhere p ∧ Yaml.height d ≤ depth

/-- The items of a list fit into the levels below it. -/
theorem FitsIn.of_mem {items : List Document} (h : FitsIn p (depth + 1) (.list items)) :
    ∀ d ∈ items, FitsIn p depth d := by
  intro d hd
  exact ⟨h.1.2.of_mem d hd,
    Nat.le_trans (Yaml.height_le_of_mem hd) (Nat.le_of_succ_le_succ h.2)⟩

/-- The parts of a record fit into the levels below it. -/
theorem FitsIn.partsHave (hbasic : ∀ d, p d → IsBasicNode d) (hnil : p (.list []))
    {entries : List (Document × Document)} (h : FitsIn p (depth + 1) (.map entries))
    (htag : field? "tag" entries ≠ none) : PartsHave table (FitsIn p depth) entries := by
  have hfield : ∀ {name d}, field? name entries = some d → FitsIn p depth d := by
    intro name d hd
    exact ⟨h.1.2.of_field? hd,
      Nat.le_trans (Yaml.height_le_of_field? hd) (Nat.le_of_succ_le_succ h.2)⟩
  refine ⟨hfield, fun hd hlist => ?_, ⟨hnil, trivial⟩, ?_⟩
  · have hfits := hfield hd
    obtain rfl := (follow_of_isBasicNode (hbasic _ hfits.1.self)).symm.trans hlist
    have hlower : FitsIn p (depth + 1) (.list _) := ⟨hfits.1, Nat.le_succ_of_le hfits.2⟩
    exact ⟨hfits, hlower.of_mem⟩
  · obtain ⟨tag, htag⟩ := Option.ne_none_iff_exists'.mp htag
    exact Nat.le_trans (Yaml.height_pos tag) (hfield htag).2

/-- **A basic document is refused with a fault that can be reported**, if there are levels enough
for it. -/
theorem isMalformed_of_decodeAt (ht : ∀ c ∈ table, c.Everywhere IsShort) (depth : Nat) :
    ∀ d : Document, FitsIn IsBasicNode depth d →
      FailsWith TreeFault.IsMalformed (decodeAt table depth d) := by
  have hP : ∀ f : TreeFault, f.Shows table (Everywhere IsShort) → f.IsMalformed :=
    fun _ => TreeFault.Shows.isMalformed ht
  have hshort : ∀ d : Document, d.Everywhere IsBasicNode → d.Everywhere IsShort :=
    Everywhere.imp fun _ => IsBasicNode.isShort
  induction depth with
  | zero => exact fun d hd => absurd hd.2 (Nat.not_le.mpr (Yaml.height_pos d))
  | succ depth ih =>
    intro d hd
    have hfollow : Data.follow table d = d := follow_of_isBasicNode hd.1.self
    refine failsWith_decodeAt_succ hP ih (fun x hx => hshort x hx.1) (fun _ => trivial) ?_
      (fun items heq => ?_) (fun entries heq htag => ?_)
    · rw [hfollow]
      exact ⟨hshort d hd.1, hshort d hd.1⟩
    · obtain rfl := hfollow.symm.trans heq
      exact hd.of_mem
    · obtain rfl := hfollow.symm.trans heq
      exact hd.partsHave (fun _ => id) trivial htag

end Tree

end Treewalk
