import Mathlib.Data.List.TakeDrop
import Mathlib.Data.List.TakeWhile
import Treewalk.Proofs.Yaml.Graph
import Treewalk.Proofs.Yaml.Nodes

/-!
# Nodes as cells

The cells that are made for the nodes of a graph hold the documents that the nodes stand for. The
documents of the cells are listed in the order of the cells. While cells are filled, each of them
fits its document or is still to be filled (`Builder.Holds`). One round fills the cells that are
open, and what it opens stands for smaller documents; so there are no more rounds than the height of
the whole document (`Builder.fillAll_spec`).
-/

namespace Treewalk

/-- What stands at a place of an array after a value has been put at a place. -/
theorem getElem?_set_eq_some {α : Type} {xs : Array α} {i j : Nat} {x y : α}
    (h : (xs.setIfInBounds i x)[j]? = some y) : i = j ∧ x = y ∨ i ≠ j ∧ xs[j]? = some y := by
  rw [Array.getElem?_setIfInBounds] at h
  split at h
  · next heq =>
    split at h
    · exact .inl ⟨heq, Option.some.inj h⟩
    · exact nomatch h
  · next hne => exact .inr ⟨hne, h⟩

/-- The document of a part, given those of the cells. -/
def Part.document (docs : List Document) : Part → Option Document
  | whole d => some d
  | place q => docs[q]?

/-- Whether a cell holds a document, given those of all cells. -/
inductive Cell.Fits (docs : List Document) : Cell → Document → Prop where
  | list {parts items} : List.Forall₂ (fun p d => p.document docs = some d) parts items →
    Fits docs (.list parts) (.list items)
  | map {parts entries} :
    List.Forall₂ (fun p e => p.1 = e.1 ∧ p.2.document docs = some e.2) parts entries →
    Fits docs (.map parts) (.map entries)

variable {docs docs' : List Document} {d : Document}

theorem Part.document_append {p : Part} (h : p.document docs = some d) (more : List Document) :
    p.document (docs ++ more) = some d := by
  cases p with
  | whole d' => exact h
  | place q => exact Yaml.getElem?_append_of_some h more

theorem Part.document_mono {p : Part} (h : p.document docs = some d) (hgrows : docs <+: docs') :
    p.document docs' = some d := by
  obtain ⟨more, rfl⟩ := hgrows
  exact document_append h more

theorem Cell.Fits.append {cell : Cell} (h : cell.Fits docs d) (more : List Document) :
    cell.Fits (docs ++ more) d := by
  cases h with
  | list h => exact .list (.imp (fun _ _ hp => Part.document_append hp more) h)
  | map h => exact .map (.imp (fun _ _ hp => ⟨hp.1, Part.document_append hp.2 more⟩) h)

namespace Yaml

/-! ## Graphs -/

/-- Whether the nodes of a graph stand for documents. -/
structure Graph.StandsFor (g : Graph) (ds : List Document) : Prop where
  length_eq : ds.length = g.size
  fits : ∀ (i : NodeId) (x : Node) (d : Document), g[i]? = some x → ds[i]? = some d → x.Fits ds d

variable {g : Graph} {ds : List Document} {i : NodeId}

namespace Graph.StandsFor

theorem exists_node (h : g.StandsFor ds) (hd : ds[i]? = some d) :
    ∃ x, g[i]? = some x ∧ x.Fits ds d := by
  have hi : i < g.size := h.length_eq ▸ (List.getElem?_eq_some_iff.mp hd).1
  have hx : g[i]? = some g[i] := Array.getElem?_eq_getElem hi
  exact ⟨_, hx, h.fits i _ d hx hd⟩

/-- A node that stands for a document is no merge key and no value key. -/
theorem tag_ne (h : g.StandsFor ds) (hd : ds[i]? = some d) :
    g.tag i ≠ .merge ∧ g.tag i ≠ .value := by
  obtain ⟨x, hx, hfits⟩ := h.exists_node hd
  rw [Graph.tag_eq hx]
  cases hfits with
  | scalar _ hvalue =>
    constructor <;> rintro rfl <;> exact nomatch hvalue 0
  | list | map => exact ⟨nofun, nofun⟩

theorem tags_ne (h : g.StandsFor ds) {pairs : List (NodeId × NodeId)}
    {entries : List (Document × Document)}
    (hpairs : List.Forall₂ (fun p e => ds[p.1]? = some e.1 ∧ ds[p.2]? = some e.2) pairs entries) :
    ∀ p ∈ pairs, g.tag p.1 ≠ .merge ∧ g.tag p.1 ≠ .value := by
  induction hpairs with
  | nil => nofun
  | cons hp _ ih => exact List.forall_mem_cons.mpr ⟨h.tag_ne hp.1, ih⟩

end Graph.StandsFor

theorem Graph.relabelValueKeys_eq {pairs : List (NodeId × NodeId)}
    (hkeys : ∀ p ∈ pairs, g.tag p.1 ≠ .value) : g.relabelValueKeys pairs = g := by
  unfold Graph.relabelValueKeys
  induction pairs with
  | nil => rfl
  | cons p pairs ih =>
    obtain ⟨hkey, hkeys⟩ := List.forall_mem_cons.mp hkeys
    have hkeep : (if g.tag p.1 = .value then g.relabel p.1 .str else g) = g := if_neg hkey
    rw [List.foldl_cons]
    dsimp only
    rw [hkeep]
    exact ih hkeys

/-- Merging leaves a mapping without merge keys and value keys as it is. -/
theorem Graph.merge_eq (hkeys : ∀ p ∈ g.entries i, g.tag p.1 ≠ .merge ∧ g.tag p.1 ≠ .value)
    (bound : Nat) : g.merge bound i = .ok g := by
  have hall : ∀ p ∈ g.entries i, decide (g.tag p.1 ≠ .merge) = true :=
    fun p hp => decide_eq_true (hkeys p hp).1
  have hspan : (g.entries i).span (fun p => decide (g.tag p.1 ≠ .merge)) = (g.entries i, []) := by
    rw [List.span_eq_takeWhile_dropWhile, List.takeWhile_eq_self_iff.mpr hall,
      List.dropWhile_eq_nil_iff.mpr hall]
  unfold Graph.merge Graph.mergeFrom
  dsimp only
  rw [List.drop_zero, hspan]
  dsimp only
  rw [Graph.relabelValueKeys_eq fun p hp => (hkeys p hp).2]
  rfl

/-! ## Cells -/

/-- Whether nodes stand for documents of at most a height. -/
def Low (ds : List Document) (h : Nat) (todo : List (NodeId × Nat)) : Prop :=
  ∀ p ∈ todo, ∀ d, ds[p.1]? = some d → height d ≤ h

theorem Low.cons {h : Nat} {pairs : List (NodeId × Nat)} {q : Nat} (hlow : Low ds h pairs)
    (hd : ds[i]? = some d) (hheight : height d ≤ h) : Low ds h ((i, q) :: pairs) := by
  refine List.forall_mem_cons.mpr ⟨fun d' hd' => ?_, hlow⟩
  rw [hd] at hd'
  cases hd'
  exact hheight

namespace Builder

/-- Whether what has been made of nodes stands for their documents. The cells that are to be filled
are those of `todo` and the pending ones. -/
structure Holds (g : Graph) (ds docs : List Document) (todo : List (NodeId × Nat)) (b : Builder) :
    Prop where
  graph_eq : b.graph = g
  made_size : b.made.size = g.size
  cells_size : b.cells.size = docs.length
  collections : ∀ d ∈ docs, isScalar d = false
  made : ∀ (i : NodeId) (part : Part), b.made[i]? = some (some part) →
    ∃ d, ds[i]? = some d ∧ part.document docs = some d
  opened : ∀ i q, (i, q) ∈ todo ++ b.pending → ∃ d, ds[i]? = some d ∧ docs[q]? = some d
  filled : ∀ (q : Nat) (cell : Cell), b.cells[q]? = some cell → (∃ i, (i, q) ∈ todo ++ b.pending) ∨
    ∃ d, docs[q]? = some d ∧ cell.Fits docs d

/-- Whether a builder has gone on: documents for more cells were added, and what is pending stands
for documents of at most a height. -/
structure GoesOn (g : Graph) (ds docs docs' : List Document) (todo : List (NodeId × Nat)) (h : Nat)
    (b : Builder) : Prop where
  holds : b.Holds g ds docs' todo
  grows : docs <+: docs'
  low : Low ds h b.pending

variable {b b' : Builder} {todo : List (NodeId × Nat)} {h : Nat}

theorem GoesOn.trans {docs₁ docs₂ : List Document} (hgrows : docs <+: docs₁)
    (hb : b.GoesOn g ds docs₁ docs₂ todo h) : b.GoesOn g ds docs docs₂ todo h :=
  ⟨hb.holds, hgrows.trans hb.grows, hb.low⟩

/-- A scalar is made at once. -/
theorem Holds.note (hb : b.Holds g ds docs todo) (hd : ds[i]? = some d) :
    (b.note i (.whole d)).Holds g ds docs todo where
  graph_eq := hb.graph_eq
  made_size := by
    show (b.made.setIfInBounds i _).size = g.size
    rw [Array.size_setIfInBounds, hb.made_size]
  cells_size := hb.cells_size
  collections := hb.collections
  made j part hpart := by
    rcases getElem?_set_eq_some hpart with ⟨rfl, heq⟩ | ⟨-, hpart⟩
    · cases heq
      exact ⟨d, hd, rfl⟩
    · exact hb.made j part hpart
  opened := hb.opened
  filled := hb.filled

/-- A collection gets an empty cell. -/
theorem Holds.openCell (hb : b.Holds g ds docs todo) (hd : ds[i]? = some d)
    (hcollection : isScalar d = false) (empty : Cell) :
    (b.openCell i empty).2.Holds g ds (docs ++ [d]) todo := by
  have hlast : (docs ++ [d])[b.cells.size]? = some d := by
    rw [hb.cells_size, List.getElem?_concat_length]
  refine ⟨hb.graph_eq, ?_, ?_, ?_, ?_, ?_, ?_⟩
  · show (b.made.setIfInBounds i _).size = g.size
    rw [Array.size_setIfInBounds, hb.made_size]
  · show (b.cells.push empty).size = _
    rw [Array.size_push, hb.cells_size, List.length_append, List.length_singleton]
  · exact List.forall_mem_append.mpr ⟨hb.collections, by simpa using hcollection⟩
  · intro j part hpart
    rcases getElem?_set_eq_some hpart with ⟨rfl, heq⟩ | ⟨-, hpart⟩
    · cases heq
      exact ⟨d, hd, hlast⟩
    · obtain ⟨d', hd', hpart⟩ := hb.made j part hpart
      exact ⟨d', hd', Part.document_append hpart [d]⟩
  · intro j q hmem
    have hmem : (j, q) ∈ todo ++ (i, b.cells.size) :: b.pending := hmem
    rcases List.mem_append.mp hmem with hmem | hmem
    · obtain ⟨d', hd', hq⟩ := hb.opened j q (List.mem_append_left _ hmem)
      exact ⟨d', hd', getElem?_append_of_some hq [d]⟩
    · rcases List.mem_cons.mp hmem with heq | hmem
      · cases heq
        exact ⟨d, hd, hlast⟩
      · obtain ⟨d', hd', hq⟩ := hb.opened j q (List.mem_append_right _ hmem)
        exact ⟨d', hd', getElem?_append_of_some hq [d]⟩
  · intro q cell hcell
    have hcell : (b.cells.push empty)[q]? = some cell := hcell
    show (∃ j, (j, q) ∈ todo ++ (i, b.cells.size) :: b.pending) ∨ _
    rw [Array.getElem?_push] at hcell
    split at hcell
    · next heq => exact .inl ⟨i, by rw [heq]; simp⟩
    · rcases hb.filled q cell hcell with ⟨j, hj⟩ | ⟨d', hd', hfits⟩
      · refine .inl ⟨j, ?_⟩
        rcases List.mem_append.mp hj with hj | hj
        · exact List.mem_append_left _ hj
        · exact List.mem_append_right _ (List.mem_cons_of_mem _ hj)
      · exact .inr ⟨d', getElem?_append_of_some hd' [d], hfits.append [d]⟩

/-- A cell is filled. -/
theorem Holds.setCell {place : Nat} {cell : Cell} (hb : b.Holds g ds docs ((i, place) :: todo))
    (hd : docs[place]? = some d) (hcell : cell.Fits docs d) :
    Holds g ds docs todo { b with cells := b.cells.setIfInBounds place cell } where
  graph_eq := hb.graph_eq
  made_size := hb.made_size
  cells_size := by
    show (b.cells.setIfInBounds place cell).size = _
    rw [Array.size_setIfInBounds, hb.cells_size]
  collections := hb.collections
  made := hb.made
  opened j q hmem := hb.opened j q (List.mem_cons_of_mem _ hmem)
  filled q c hc := by
    rcases getElem?_set_eq_some hc with ⟨rfl, rfl⟩ | ⟨hne, hc⟩
    · exact .inr ⟨d, hd, hcell⟩
    · rcases hb.filled q c hc with ⟨j, hj⟩ | hfits
      · rcases List.mem_cons.mp hj with heq | hj
        · cases heq
          exact absurd rfl hne
        · exact .inl ⟨j, hj⟩
      · exact .inr hfits

/-! ## Making parts -/

/-- A node that stands for a document becomes a part with this document. -/
theorem make_spec (hg : g.StandsFor ds) (hb : b.Holds g ds docs todo) (hlow : Low ds h b.pending)
    (hd : ds[i]? = some d) (hheight : height d ≤ h) :
    ∃ part b' docs', b.make i = .ok (part, b') ∧ b'.GoesOn g ds docs docs' todo h ∧
      part.document docs' = some d := by
  unfold make
  split
  · next part hpart =>
    obtain ⟨d', hd', hpart⟩ := hb.made i part hpart
    rw [hd] at hd'
    cases hd'
    exact ⟨part, b, docs, rfl, ⟨hb, List.prefix_refl _, hlow⟩, hpart⟩
  · obtain ⟨x, hx, hfits⟩ := hg.exists_node hd
    have hplace (d : Document) : (docs ++ [d])[b.cells.size]? = some d := by
      rw [hb.cells_size, List.getElem?_concat_length]
    rw [hb.graph_eq, Graph.tag_eq hx]
    cases hfits with
    | list | map =>
      exact ⟨_, _, _, rfl, ⟨hb.openCell hd rfl _, List.prefix_append _ _, hlow.cons hd hheight⟩,
        hplace _⟩
    | @scalar tag t _ _ hvalue =>
      have hscalar : scalar g i tag = .ok d := by
        unfold scalar scalarText
        rw [Graph.content_eq hx]
        rw [← hvalue i]
        cases tag <;> rfl
      cases tag with
      | seq | map | orderedMap | pairs | set | merge | value | unknown => cases hvalue 0
      | _ =>
        exact ⟨.whole d, b.note i (.whole d), docs, by dsimp only; rw [hscalar]; rfl,
          ⟨hb.note hd, List.prefix_refl _, hlow⟩, rfl⟩

theorem makeAll_spec (hg : g.StandsFor ds) (hb : b.Holds g ds docs todo)
    (hlow : Low ds h b.pending) {ids : List NodeId} {items : List Document}
    (hitems : List.Forall₂ (fun i d => ds[i]? = some d) ids items)
    (hheight : itemsHeight items ≤ h) :
    ∃ parts b' docs', b.makeAll ids = .ok (parts, b') ∧ b'.GoesOn g ds docs docs' todo h ∧
      List.Forall₂ (fun p d => p.document docs' = some d) parts items := by
  induction hitems generalizing b docs with
  | nil => exact ⟨[], b, docs, rfl, ⟨hb, List.prefix_refl _, hlow⟩, .nil⟩
  | @cons i d ids items hd hitems ih =>
    obtain ⟨hheight, hheights⟩ := Nat.max_le.mp hheight
    obtain ⟨part, b₁, docs₁, hmake, hgoes, hpart⟩ := make_spec hg hb hlow hd hheight
    obtain ⟨parts, b₂, docs₂, hmakeAll, hgoes', hparts⟩ := ih hgoes.holds hgoes.low hheights
    refine ⟨part :: parts, b₂, docs₂, ?_, .trans hgoes.grows hgoes',
      .cons (Part.document_mono hpart hgoes'.grows) hparts⟩
    rw [makeAll, hmake]
    dsimp only [bind, Except.bind]
    rw [hmakeAll]
    rfl

theorem keys_eq {done : List (Document × Part)} {entries : List (Document × Document)}
    (h : List.Forall₂ (fun p e => p.1 = e.1 ∧ p.2.document docs = some e.2) done entries) :
    done.map (·.1) = entries.map (·.1) := by
  induction h with
  | nil => rfl
  | cons he _ ih => rw [List.map_cons, List.map_cons, he.1, ih]

/-- A text is no collection, and so it is made at once. -/
theorem eq_whole_of_text {part : Part} {t : Text} (hb : b.Holds g ds docs todo)
    (hpart : part.document docs = some (.text t)) : part = .whole (.text t) := by
  cases part with
  | whole d => exact congrArg Part.whole (Option.some.inj hpart)
  | place q => exact nomatch hb.collections _ (List.mem_of_getElem? hpart)

theorem makeEntries_spec (hg : g.StandsFor ds) (hb : b.Holds g ds docs todo)
    (hlow : Low ds h b.pending) {pairs : List (NodeId × NodeId)}
    {done : List (Document × Part)} (before : List (Document × Document))
    {entries : List (Document × Document)}
    (hentries : List.Forall₂ (fun p e => ds[p.1]? = some e.1 ∧ ds[p.2]? = some e.2) pairs entries)
    (hheight : entriesHeight entries ≤ h) (hkeys : HasTextKeys (before ++ entries))
    (hdone : List.Forall₂ (fun p e => p.1 = e.1 ∧ p.2.document docs = some e.2) done before) :
    ∃ parts b' docs', b.makeEntries done pairs = .ok (parts, b') ∧
      b'.GoesOn g ds docs docs' todo h ∧
      List.Forall₂ (fun p e => p.1 = e.1 ∧ p.2.document docs' = some e.2) parts
        (before ++ entries) := by
  induction hentries generalizing b docs done before with
  | nil =>
    rw [List.append_nil]
    exact ⟨done, b, docs, rfl, ⟨hb, List.prefix_refl _, hlow⟩, hdone⟩
  | @cons p e pairs entries hd hentries ih =>
    obtain ⟨hheight, hheights⟩ := Nat.max_le.mp hheight
    obtain ⟨hheightKey, hheightValue⟩ := Nat.max_le.mp hheight
    obtain ⟨t, ht⟩ := hkeys.1 e (by simp)
    obtain ⟨key, b₁, docs₁, hmakeKey, hgoes₁, hkey⟩ := make_spec hg hb hlow hd.1 hheightKey
    rw [ht] at hkey
    obtain rfl := eq_whole_of_text hgoes₁.holds hkey
    obtain ⟨value, b₂, docs₂, hmakeValue, hgoes₂, hvalue⟩ :=
      make_spec hg hgoes₁.holds hgoes₁.low hd.2 hheightValue
    have hgrows : docs <+: docs₂ := hgoes₁.grows.trans hgoes₂.grows
    have hnew : ∀ q ∈ done, q.1.sameKey (.text t) = false := by
      intro q hq
      have hmem : q.1 ∈ before.map (·.1) := keys_eq hdone ▸ List.mem_map_of_mem hq
      obtain ⟨e', he', heq⟩ := List.mem_map.mp hmem
      rw [← heq, ← ht]
      exact (List.pairwise_append.mp hkeys.2).2.2 e' he' e List.mem_cons_self
    have hdone' : List.Forall₂ (fun p e => p.1 = e.1 ∧ p.2.document docs₂ = some e.2)
        (done ++ [(.text t, value)]) (before ++ [e]) :=
      List.rel_append (.imp (fun _ _ hp => ⟨hp.1, Part.document_mono hp.2 hgrows⟩) hdone)
        (.cons ⟨ht.symm, hvalue⟩ .nil)
    have happend : before ++ [e] ++ entries = before ++ e :: entries := by simp
    obtain ⟨parts, b₃, docs₃, hmake, hgoes₃, hparts⟩ :=
      ih hgoes₂.holds hgoes₂.low (before ++ [e]) hheights (happend ▸ hkeys) hdone'
    rw [happend] at hparts
    refine ⟨parts, b₃, docs₃, ?_, .trans hgrows hgoes₃, hparts⟩
    rw [makeEntries, hmakeKey]
    dsimp only [bind, Except.bind]
    rw [hmakeValue]
    dsimp only
    rw [setEntry_of_new hnew]
    exact hmake

/-! ## Filling cells -/

/-- Where nothing is merged, the entries of a mapping are made as they are. -/
theorem makeMapping_eq (hg : g.StandsFor ds) (hb : b.Holds g ds docs todo)
    {pairs : List (NodeId × NodeId)} {entries : List (Document × Document)}
    (hcontent : g.content i = .map pairs)
    (hentries : List.Forall₂ (fun p e => ds[p.1]? = some e.1 ∧ ds[p.2]? = some e.2) pairs entries)
    (bound : Nat) :
    b.makeMapping bound i = b.makeEntries [] pairs := by
  obtain ⟨graph, made, cells, pending⟩ := b
  obtain rfl : graph = g := hb.graph_eq
  have hpairs : graph.entries i = pairs := by
    unfold Graph.entries
    rw [hcontent]
  unfold makeMapping
  dsimp only
  rw [hcontent, Graph.merge_eq (hpairs ▸ hg.tags_ne hentries)]
  dsimp only [bind, Except.bind]
  rw [hpairs]

/-- A cell of a node that stands for a document is filled. -/
theorem fill_spec (hg : g.StandsFor ds) {place : Nat} (hb : b.Holds g ds docs ((i, place) :: todo))
    (hlow : Low ds h b.pending) (hheight : ∀ d, ds[i]? = some d → height d ≤ h + 1) (bound : Nat) :
    ∃ b' docs', b.fill bound i place = .ok b' ∧ b'.GoesOn g ds docs docs' todo h := by
  obtain ⟨d, hd, hplace⟩ := hb.opened i place List.mem_cons_self
  have hcollection : isScalar d = false := hb.collections d (List.mem_of_getElem? hplace)
  have hheight : height d ≤ h + 1 := hheight d hd
  obtain ⟨x, hx, hfits⟩ := hg.exists_node hd
  cases hfits with
  | scalar hscalar => exact absurd hscalar (by rw [hcollection]; exact Bool.false_ne_true)
  | list hitems =>
    obtain ⟨parts, b₁, docs₁, hmake, hgoes, hparts⟩ :=
      makeAll_spec hg hb hlow hitems (Nat.le_of_succ_le_succ hheight)
    refine ⟨{ b₁ with cells := b₁.cells.setIfInBounds place (.list parts) }, docs₁, ?_,
      hgoes.holds.setCell ?_ (.list hparts), hgoes.grows, hgoes.low⟩
    · unfold fill
      rw [hb.graph_eq, Graph.tag_eq hx, Graph.content_eq hx]
      dsimp only
      rw [hmake]
      rfl
    · exact Part.document_mono (p := .place place) hplace hgoes.grows
  | @map pairs entries hkeys hentries =>
    obtain ⟨parts, b₁, docs₁, hmake, hgoes, hparts⟩ :=
      makeEntries_spec hg hb hlow [] hentries (Nat.le_of_succ_le_succ hheight) hkeys .nil
    refine ⟨{ b₁ with cells := b₁.cells.setIfInBounds place (.map parts) }, docs₁, ?_,
      hgoes.holds.setCell ?_ (.map hparts), hgoes.grows, hgoes.low⟩
    · unfold fill
      rw [hb.graph_eq, Graph.tag_eq hx]
      dsimp only
      rw [makeMapping_eq hg hb (Graph.content_eq hx) hentries, hmake]
      rfl
    · exact Part.document_mono (p := .place place) hplace hgoes.grows

/-- The cells of one round are filled. -/
theorem foldlM_fill_spec (hg : g.StandsFor ds) (bound : Nat) (hb : b.Holds g ds docs todo)
    (hlow : Low ds h b.pending) (htodo : Low ds (h + 1) todo) :
    ∃ b' docs', todo.foldlM (fun b (n, place) => b.fill bound n place) b = .ok b' ∧
      b'.GoesOn g ds docs docs' [] h := by
  induction todo generalizing b docs with
  | nil => exact ⟨b, docs, rfl, hb, List.prefix_refl _, hlow⟩
  | cons p todo ih =>
    obtain ⟨hp, htodo⟩ := List.forall_mem_cons.mp htodo
    obtain ⟨b₁, docs₁, hfill, hgoes⟩ := fill_spec hg hb hlow hp bound
    obtain ⟨b₂, docs₂, hfold, hgoes'⟩ := ih hgoes.holds hgoes.low htodo
    refine ⟨b₂, docs₂, ?_, .trans hgoes.grows hgoes'⟩
    rw [List.foldlM_cons]
    dsimp only [bind, Except.bind]
    rw [hfill]
    exact hfold

/-- A round starts with the cells that are pending. -/
theorem Holds.round (hb : b.Holds g ds docs []) :
    Holds g ds docs b.pending.reverse { b with pending := [] } where
  graph_eq := hb.graph_eq
  made_size := hb.made_size
  cells_size := hb.cells_size
  collections := hb.collections
  made := hb.made
  opened i q hmem := hb.opened i q (by simpa using hmem)
  filled q cell hcell := by simpa using hb.filled q cell hcell

/-- Every document has some height. -/
theorem Holds.pending_eq_nil (hb : b.Holds g ds docs []) (hlow : Low ds 0 b.pending) :
    b.pending = [] := by
  refine List.eq_nil_iff_forall_not_mem.mpr fun p hp => ?_
  obtain ⟨d, hd, -⟩ := hb.opened p.1 p.2 hp
  exact absurd (height_pos d) (Nat.not_lt.mpr (hlow p hp d hd))

/-- **After as many rounds as the documents are high, all cells are filled.** -/
theorem fillAll_spec (hg : g.StandsFor ds) (bound : Nat) {rounds : Nat} (hrounds : h ≤ rounds)
    (hb : b.Holds g ds docs []) (hlow : Low ds h b.pending) :
    ∃ b' docs', b.fillAll bound rounds = .ok b' ∧ b'.Holds g ds docs' [] ∧ docs <+: docs' ∧
      b'.pending = [] := by
  induction rounds generalizing b docs h with
  | zero =>
    obtain rfl := Nat.le_zero.mp hrounds
    exact ⟨b, docs, rfl, hb, List.prefix_refl _, hb.pending_eq_nil hlow⟩
  | succ rounds ih =>
    rw [fillAll]
    split
    · next hempty => exact ⟨b, docs, rfl, hb, List.prefix_refl _, List.isEmpty_iff.mp hempty⟩
    · next hopen =>
      cases h with
      | zero =>
        rw [hb.pending_eq_nil hlow] at hopen
        exact absurd rfl hopen
      | succ h =>
        obtain ⟨b₁, docs₁, hfold, hgoes⟩ := foldlM_fill_spec hg bound hb.round nofun
          fun p hp => hlow p (List.mem_reverse.mp hp)
        obtain ⟨b₂, docs₂, hfill, hb₂, hgrows, hpending⟩ :=
          ih (Nat.le_of_succ_le_succ hrounds) hgoes.holds hgoes.low
        refine ⟨b₂, docs₂, ?_, hb₂, hgoes.grows.trans hgrows, hpending⟩
        dsimp only [bind, Except.bind]
        rw [hfold]
        exact hfill

/-- Before anything is made. -/
theorem holds_start (g : Graph) (ds : List Document) : (start g).Holds g ds [] [] where
  graph_eq := rfl
  made_size := Array.size_replicate
  cells_size := rfl
  collections := nofun
  made i part hpart := by
    have hnone : (Array.replicate g.size (none : Option Part))[i]? = some (some part) := hpart
    rw [Array.getElem?_replicate] at hnone
    split at hnone <;> cases hnone
  opened := nofun
  filled := nofun

end Builder

/-- **The data of a node are the cells of a document that the node stands for.** -/
theorem Graph.toData_eq (hg : g.StandsFor ds) (hd : ds[i]? = some d) (hheight : height d ≤ g.size) :
    ∃ (cells : Array Cell) (docs : List Document) (root : Part),
      g.toData i = .ok (.ofCells cells root) ∧ cells.size = docs.length ∧
      (∀ (q : Nat) (cell : Cell), cells[q]? = some cell →
        ∃ d, docs[q]? = some d ∧ cell.Fits docs d) ∧
      root.document docs = some d := by
  obtain ⟨root, b₁, docs₁, hmake, hgoes, hroot⟩ :=
    Builder.make_spec hg (Builder.holds_start g ds) nofun hd (Nat.le_refl _)
  obtain ⟨b₂, docs₂, hfill, hb₂, hgrows, hpending⟩ := Builder.fillAll_spec hg g.countEntries
    (Nat.le_succ_of_le hheight) hgoes.holds hgoes.low
  refine ⟨b₂.cells, docs₂, root, ?_, hb₂.cells_size, fun q cell hcell => ?_,
    Part.document_mono hroot hgrows⟩
  · unfold Graph.toData
    rw [hmake]
    dsimp only [bind, Except.bind]
    rw [hfill]
    rfl
  · rcases hb₂.filled q cell hcell with ⟨j, hj⟩ | hfits
    · rw [hpending] at hj
      exact nomatch hj
    · exact hfits

end Yaml

end Treewalk
