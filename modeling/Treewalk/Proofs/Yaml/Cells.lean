import Treewalk.Proofs.Yaml.Builder

/-!
# Cells as documents

Cells that hold documents, each given those of the others, make up the document of their root. No
cell is reached from itself, because the parts of a document are lower than the document; so every
cell that the walk enters is settled as a whole (`Cell.settle_spec`). The walk goes on as long as
there are more levels left than cells that have not been seen.
-/

namespace Treewalk

open Yaml (height itemsHeight entriesHeight)

namespace Cell

variable {cells : Array Cell} {docs items : List Document} {d : Document} {h : Nat}

/-! ## Parts -/

theorem itemsHeight_values_le (entries : List (Document × Document)) :
    itemsHeight (entries.map (·.2)) ≤ entriesHeight entries := by
  induction entries with
  | nil => exact Nat.le_refl 0
  | cons e entries ih =>
    rw [List.map_cons, itemsHeight, entriesHeight]
    omega

/-- The parts of a cell that holds a document hold lower documents, and make up the document. -/
theorem Fits.exists_items {cell : Cell} (hfits : cell.Fits docs d) :
    ∃ items, List.Forall₂ (fun p i => p.document docs = some i) cell.parts items ∧
      itemsHeight items < height d ∧
      ∀ document : Part → Document, List.Forall₂ (fun p i => document p = i) cell.parts items →
        cell.toDocument document = d := by
  cases hfits with
  | @list parts items hitems =>
    refine ⟨items, hitems, Nat.lt_succ_self _, fun document hdocument => ?_⟩
    have hmap : List.Forall₂ Eq (parts.map document) items :=
      List.forall₂_map_left_iff.mpr hdocument
    rw [List.forall₂_eq_eq_eq] at hmap
    exact congrArg Document.list hmap
  | @map parts entries hentries =>
    refine ⟨entries.map (·.2), ?_, Nat.lt_succ_of_le (itemsHeight_values_le entries), ?_⟩
    · exact List.forall₂_map_left_iff.mpr (List.forall₂_map_right_iff.mpr
        (.imp (fun _ _ he => he.2) hentries))
    · intro document hdocument
      refine congrArg Document.map ?_
      change List.Forall₂ _ (parts.map (·.2)) (entries.map (·.2)) at hdocument
      induction hentries with
      | nil => rfl
      | @cons p e parts entries he _ ih =>
        obtain ⟨hvalue, hdocument⟩ := List.forall₂_cons.mp hdocument
        rw [List.map_cons, ih hdocument]
        dsimp only
        rw [he.1, hvalue]

/-! ## Marks -/

/-- Whether a cell has not been seen. -/
def Mark.isUnseen : Mark → Bool
  | unseen => true
  | _ => false

/-- Whether marks tell the documents of cells, and those entered hold documents above a height. -/
structure Marked (docs : List Document) (h : Nat) (marks : Array Mark) : Prop where
  size_eq : marks.size = docs.length
  whole : ∀ (q : Nat) (d : Document), marks[q]? = some (.whole d) → docs[q]? = some d
  not_cyclic : ∀ q : Nat, marks[q]? ≠ some .cyclic
  entered : ∀ q : Nat, marks[q]? = some .entered → ∀ d, docs[q]? = some d → h < height d

/-- Whether marks come from others by settling cells as wholes. -/
structure Later (marks marks' : Array Mark) : Prop where
  changed : ∀ q : Nat, marks'[q]? = marks[q]? ∨
    marks[q]? = some .unseen ∧ ∃ d, marks'[q]? = some (.whole d)
  unseen_le : marks'.countP Mark.isUnseen ≤ marks.countP Mark.isUnseen

/-- Whether a part is known to hold a document. -/
def Known (marks : Array Mark) : Part → Document → Prop
  | .whole d', d => d' = d
  | .place q, d => marks[q]? = some (.whole d)

variable {marks marks' marks'' : Array Mark} {p : Part}

theorem Later.refl (marks : Array Mark) : Later marks marks := ⟨fun _ => .inl rfl, Nat.le_refl _⟩

theorem Later.trans (h : Later marks marks') (h' : Later marks' marks'') : Later marks marks'' where
  changed q := by
    rcases h'.changed q with heq | ⟨hunseen, hwhole⟩
    · rw [heq]
      exact h.changed q
    · rcases h.changed q with heq | ⟨-, d, hd⟩
      · exact .inr ⟨heq ▸ hunseen, hwhole⟩
      · rw [hd] at hunseen
        exact nomatch hunseen
  unseen_le := Nat.le_trans h'.unseen_le h.unseen_le

theorem Later.known (h : Later marks marks') (hp : Known marks p d) : Known marks' p d := by
  cases p with
  | whole d' => exact hp
  | place q =>
    have hq : marks[q]? = some (.whole d) := hp
    rcases h.changed q with heq | ⟨hunseen, -⟩
    · exact heq.trans hq
    · rw [hq] at hunseen
      exact nomatch hunseen

theorem Known.isWhole (hp : Known marks p d) : Mark.isWhole marks p = true := by
  cases p with
  | whole d' => rfl
  | place q =>
    have hq : marks[q]? = some (.whole d) := hp
    unfold Mark.isWhole
    dsimp only
    rw [hq]

theorem Known.document_eq (hp : Known marks p d) : Mark.document marks p = d := by
  cases p with
  | whole d' => exact hp
  | place q =>
    have hq : marks[q]? = some (.whole d) := hp
    unfold Mark.document
    dsimp only
    rw [hq]

theorem all_isWhole {parts : List Part} (hall : List.Forall₂ (Known marks) parts items) :
    parts.all (Mark.isWhole marks) = true := by
  induction hall with
  | nil => rfl
  | cons hp _ ih => rw [List.all_cons, hp.isWhole, ih, Bool.and_self]

/-! ## Settling -/

/-- Entering a cell. -/
theorem countP_enter {q : Nat} (hq : marks[q]? = some .unseen) :
    (marks.setIfInBounds q .entered).countP Mark.isUnseen < marks.countP Mark.isUnseen := by
  obtain ⟨hlt, heq⟩ := Array.getElem?_eq_some_iff.mp hq
  have hpos : 0 < marks.countP Mark.isUnseen :=
    Array.countP_pos_iff.mpr ⟨_, Array.getElem_mem hlt, by rw [heq]; rfl⟩
  rw [Array.setIfInBounds_def, dif_pos hlt, Array.countP_set, heq]
  show marks.countP Mark.isUnseen - 1 + 0 < _
  omega

/-- Leaving a cell. -/
theorem countP_leave {q : Nat} (hq : marks[q]? = some .entered) (d : Document) :
    (marks.setIfInBounds q (.whole d)).countP Mark.isUnseen = marks.countP Mark.isUnseen := by
  obtain ⟨hlt, heq⟩ := Array.getElem?_eq_some_iff.mp hq
  rw [Array.setIfInBounds_def, dif_pos hlt, Array.countP_set, heq]
  rfl

theorem getElem?_set_self {q : Nat} {m : Mark} (hq : marks[q]? = some m) (m' : Mark) :
    (marks.setIfInBounds q m')[q]? = some m' := by
  obtain ⟨hlt, -⟩ := Array.getElem?_eq_some_iff.mp hq
  rw [Array.getElem?_setIfInBounds, if_pos rfl, if_pos hlt]

theorem getElem?_set_ne {q r : Nat} (hne : q ≠ r) (marks : Array Mark) (m : Mark) :
    (marks.setIfInBounds q m)[r]? = marks[r]? := by
  rw [Array.getElem?_setIfInBounds, if_neg hne]

/-- The parts of a cell that has been entered hold lower documents than the cell. -/
theorem Marked.enter {q : Nat} (hm : Marked docs h marks) (hq : docs[q]? = some d)
    (hheight : height d ≤ h) :
    Marked docs (height d - 1) (marks.setIfInBounds q .entered) where
  size_eq := (Array.size_setIfInBounds ..).trans hm.size_eq
  whole r d' hr := by
    rcases getElem?_set_eq_some hr with ⟨-, heq⟩ | ⟨-, hr⟩
    · exact nomatch heq
    · exact hm.whole r d' hr
  not_cyclic r hr := by
    rcases getElem?_set_eq_some hr with ⟨-, heq⟩ | ⟨-, hr⟩
    · exact nomatch heq
    · exact hm.not_cyclic r hr
  entered r hr d' hd' := by
    rcases getElem?_set_eq_some hr with ⟨rfl, -⟩ | ⟨-, hr⟩
    · obtain rfl : d = d' := Option.some.inj (hq.symm.trans hd')
      have hpos := Yaml.height_pos d
      omega
    · have hlt := hm.entered r hr d' hd'
      omega

/-- A cell is left when what can be reached from it has been settled. -/
theorem Marked.leave {q : Nat} {h' : Nat} (hm : Marked docs h marks) (hq : docs[q]? = some d)
    (hmark : marks[q]? = some .unseen) (hm' : Marked docs h' marks')
    (hlater : Later (marks.setIfInBounds q .entered) marks') :
    Marked docs h (marks'.setIfInBounds q (.whole d)) ∧
      Later marks (marks'.setIfInBounds q (.whole d)) ∧
      (marks'.setIfInBounds q (.whole d))[q]? = some (.whole d) := by
  have hentered : marks'[q]? = some .entered := by
    rcases hlater.changed q with heq | ⟨hunseen, -⟩
    · rw [heq, getElem?_set_self hmark]
    · rw [getElem?_set_self hmark] at hunseen
      exact nomatch hunseen
  refine ⟨⟨(Array.size_setIfInBounds ..).trans hm'.size_eq, fun r d' hr => ?_, fun r hr => ?_,
    fun r hr d' hd' => ?_⟩, ⟨fun r => ?_, ?_⟩, getElem?_set_self hentered _⟩
  · rcases getElem?_set_eq_some hr with ⟨rfl, heq⟩ | ⟨-, hr⟩
    · cases heq
      exact hq
    · exact hm'.whole r d' hr
  · rcases getElem?_set_eq_some hr with ⟨-, heq⟩ | ⟨-, hr⟩
    · exact nomatch heq
    · exact hm'.not_cyclic r hr
  · rcases getElem?_set_eq_some hr with ⟨-, heq⟩ | ⟨hne, hr⟩
    · exact nomatch heq
    · rcases hlater.changed r with hsame | ⟨-, d'', hwhole⟩
      · rw [hsame, getElem?_set_ne hne] at hr
        exact hm.entered r hr d' hd'
      · rw [hwhole] at hr
        exact nomatch hr
  · by_cases heq : q = r
    · exact .inr ⟨heq ▸ hmark, d, heq ▸ getElem?_set_self hentered _⟩
    · have hchanged := hlater.changed r
      rw [getElem?_set_ne heq] at hchanged ⊢
      exact hchanged
  · rw [countP_leave hentered]
    exact Nat.le_trans hlater.unseen_le (Nat.le_of_lt (countP_enter hmark))

/-- Whether a part is settled by a walk with a number of levels. -/
def Settles (cells : Array Cell) (docs : List Document) (depth : Nat) : Prop :=
  ∀ {marks : Array Mark} {p : Part} {d : Document} {h : Nat}, Marked docs h marks →
    p.document docs = some d → height d ≤ h → marks.countP Mark.isUnseen < depth →
    Marked docs h (settle cells depth marks p) ∧ Later marks (settle cells depth marks p) ∧
      Known (settle cells depth marks p) p d

theorem Settles.foldl {depth : Nat} (hsettles : Settles cells docs depth) {parts : List Part}
    (hitems : List.Forall₂ (fun p i => p.document docs = some i) parts items)
    (hm : Marked docs h marks) (hheight : itemsHeight items ≤ h)
    (hdepth : marks.countP Mark.isUnseen < depth) :
    Marked docs h (parts.foldl (settle cells depth) marks) ∧
      Later marks (parts.foldl (settle cells depth) marks) ∧
      List.Forall₂ (Known (parts.foldl (settle cells depth) marks)) parts items := by
  induction hitems generalizing marks with
  | nil => exact ⟨hm, .refl marks, .nil⟩
  | @cons p i parts items hp _ ih =>
    obtain ⟨hlow, hheights⟩ := Nat.max_le.mp hheight
    obtain ⟨hm₁, hlater₁, hknown⟩ := hsettles hm hp hlow hdepth
    obtain ⟨hm₂, hlater₂, hall⟩ :=
      ih hm₁ hheights (Nat.lt_of_le_of_lt hlater₁.unseen_le hdepth)
    rw [List.foldl_cons]
    exact ⟨hm₂, hlater₁.trans hlater₂, .cons (hlater₂.known hknown) hall⟩

/-- **A part that holds a document is settled as a whole.** -/
theorem settle_spec (hsize : cells.size = docs.length)
    (hcells : ∀ (q : Nat) (cell : Cell), cells[q]? = some cell →
      ∃ d, docs[q]? = some d ∧ cell.Fits docs d) (depth : Nat) : Settles cells docs depth := by
  induction depth with
  | zero => exact fun _ _ _ hdepth => absurd hdepth (Nat.not_lt_zero _)
  | succ depth ih =>
    intro marks p d h hm hp hheight hdepth
    cases p with
    | whole d' => exact ⟨hm, .refl marks, Option.some.inj hp⟩
    | place q =>
      have hq : docs[q]? = some d := hp
      have hlt : q < docs.length := (List.getElem?_eq_some_iff.mp hq).1
      obtain ⟨cell, hcell⟩ : ∃ cell, cells[q]? = some cell :=
        ⟨_, Array.getElem?_eq_getElem (hsize ▸ hlt)⟩
      obtain ⟨mark, hmark⟩ : ∃ mark, marks[q]? = some mark :=
        ⟨_, Array.getElem?_eq_getElem (hm.size_eq ▸ hlt)⟩
      obtain ⟨d', hd', hfits⟩ := hcells q cell hcell
      obtain rfl : d = d' := Option.some.inj (hq.symm.trans hd')
      rw [settle, hcell, hmark]
      cases mark with
      | cyclic => exact absurd hmark (hm.not_cyclic q)
      | entered => exact absurd (hm.entered q hmark d hq) (Nat.not_lt.mpr hheight)
      | whole d' =>
        obtain rfl : d = d' := Option.some.inj (hq.symm.trans (hm.whole q d' hmark))
        exact ⟨hm, .refl marks, hmark⟩
      | unseen =>
        dsimp only
        obtain ⟨items, hitems, hlow, hdocument⟩ := hfits.exists_items
        obtain ⟨hm', hlater, hall⟩ := ih.foldl hitems (hm.enter hq hheight)
          (Nat.le_sub_one_of_lt hlow)
          (Nat.lt_of_lt_of_le (countP_enter hmark) (Nat.le_of_lt_succ hdepth))
        have heq := hdocument _ (.imp (fun _ _ hknown => hknown.document_eq) hall)
        rw [if_pos (all_isWhole hall), heq]
        exact hm.leave hq hmark hm' hlater

end Cell

variable {cells : Array Cell} {docs : List Document} {d : Document} {root : Part}

/-- **Cells that hold documents make up the document of their root.** -/
theorem Data.ofCells_eq (hsize : cells.size = docs.length)
    (hcells : ∀ (q : Nat) (cell : Cell), cells[q]? = some cell →
      ∃ d, docs[q]? = some d ∧ cell.Fits docs d)
    (hroot : root.document docs = some d) : Data.ofCells cells root = Data.ofDocument d := by
  have hunseen {q : Nat} {mark : Cell.Mark}
      (hq : (Array.replicate cells.size Cell.Mark.unseen)[q]? = some mark) : mark = .unseen := by
    rw [Array.getElem?_replicate] at hq
    split at hq <;> cases hq
    rfl
  have hstart : Cell.Marked docs (height d) (Array.replicate cells.size .unseen) := by
    refine ⟨Array.size_replicate.trans hsize, fun q d' hq => ?_, fun q hq => ?_, fun q hq => ?_⟩ <;>
      exact nomatch hunseen hq
  have hcount : (Array.replicate cells.size Cell.Mark.unseen).countP Cell.Mark.isUnseen <
      cells.size + 1 :=
    Nat.lt_succ_of_le (Nat.le_trans Array.countP_le_size (Nat.le_of_eq Array.size_replicate))
  obtain ⟨-, -, hknown⟩ :=
    Cell.settle_spec hsize hcells (cells.size + 1) hstart hroot (Nat.le_refl _) hcount
  unfold Data.ofCells Data.ofDocument
  dsimp only
  rw [hknown.document_eq, if_pos hknown.isWhole]

end Treewalk
