import Treewalk.Proofs.Json.Values

/-!
# Written collections are read back

Lists and mappings are the two ways in which parts are put together. A value that is written in
either layout is read as itself, wherever a value may stand (`exists_writeAt`), and so is the whole
text (`read_write`). The keys of a mapping are all different, so that no entry replaces another one.
-/

namespace Treewalk.Json

open Number Text
open Yaml (HasTextKeys setEntry_of_new)

/-! ## Lists and mappings -/

/-- Lists: the items stand in reverse. -/
def lists : Assembly Document (List Document) where
  opening := '['
  closing := ']'
  openToken := .openList
  closeToken := .closeList
  first := .firstItem
  again := .value
  start := []
  push items d := d :: items
  level := .list
  document items := .list items.reverse
  next_opening _ := rfl
  next_closing _ := rfl
  closing_ends := by decide
  step_open := Progress.WantsValue.step_openList
  step_comma _ _ _ := rfl
  step_close _ _ _ _ h := by rcases h with rfl | rfl <;> rfl

/-- Mappings: the key of the last entry stands beside the entries. -/
def maps : Assembly (Text × Document) (List (Document × Document) × Text) where
  opening := '\x7b'
  closing := '\x7d'
  openToken := .openMap
  closeToken := .closeMap
  first := .firstKey
  again := .key
  start := ([], [])
  push b e := (Document.setEntry (.text e.1) e.2 b.1, e.1)
  level b := .map b.1 b.2
  document b := .map b.1
  next_opening _ := rfl
  next_closing _ := rfl
  closing_ends := by decide
  step_open := Progress.WantsValue.step_openMap
  step_comma _ _ _ := rfl
  step_close _ _ _ _ h := by rcases h with rfl | rfl <;> rfl

variable {t value : Text} {d : Document} {depth : Nat}

theorem ReadsAs.item (h : ReadsAs t d) (hdepth : nesting d ≤ depth) :
    lists.ReadsPart depth d t := by
  intro limit outer b position rest hlimit hposition hrest
  have hlevels : (Level.list b :: outer).length + nesting d ≤ limit := by
    rw [List.length_cons]
    omega
  exact h limit ⟨.list b :: outer, position, none⟩ rest hposition.symm hlevels hrest

theorem ReadsAs.entry (h : ReadsAs value d) (key : Text) (hdepth : nesting d ≤ depth) :
    maps.ReadsPart depth (key, d) (writeText key ++ .char ':' :: .char ' ' :: value) := by
  intro limit outer b position rest hlimit hposition hrest
  have hlevels : (Level.map b.1 key :: outer).length + nesting d ≤ limit := by
    rw [List.length_cons]
    omega
  have hkey : Progress.step limit ⟨maps.level b :: outer, position, none⟩ (.text key) =
      .ok ⟨.map b.1 key :: outer, .colon, none⟩ := by
    rcases hposition with rfl | rfl <;> rfl
  have hcolon : Progress.step limit ⟨.map b.1 key :: outer, .colon, none⟩ .colon =
      .ok ⟨.map b.1 key :: outer, .value, none⟩ := rfl
  have hspaces : ∀ c ∈ [CodePoint.char ' '], isSpace c = true := by decide
  rw [List.append_assoc, readFrom_next (next_writeText key _) hkey, List.cons_append,
    readFrom_next rfl hcolon]
  exact (readFrom_spaces hspaces _).trans
    (h limit ⟨.map b.1 key :: outer, .value, none⟩ rest (.inl rfl) hlevels hrest)

/-- Entries whose keys are texts. -/
def textEntries (pairs : List (Text × Document)) : List (Document × Document) :=
  pairs.map fun e => (.text e.1, e.2)

/-- Entries with different keys are set one behind the other. -/
theorem foldl_push_maps {pairs : List (Text × Document)} {done : List (Document × Document)}
    (hkeys : HasTextKeys (done ++ textEntries pairs)) (key : Text) :
    (pairs.foldl maps.push (done, key)).1 = done ++ textEntries pairs := by
  induction pairs generalizing done key with
  | nil => exact (List.append_nil done).symm
  | cons e pairs ih =>
    have hnew : ∀ e' ∈ done, e'.1.sameKey (.text e.1) = false := fun e' he' =>
      (List.pairwise_append.mp hkeys.2).2.2 e' he' (.text e.1, e.2) List.mem_cons_self
    have happend : done ++ textEntries (e :: pairs) =
        (done ++ [(.text e.1, e.2)]) ++ textEntries pairs := by simp [textEntries]
    rw [happend] at hkeys ⊢
    rw [← ih hkeys e.1, List.foldl_cons]
    simp only [maps, setEntry_of_new hnew]

theorem foldl_push_lists (items done : List Document) :
    items.foldl lists.push done = items.reverse ++ done := by
  induction items generalizing done with
  | nil => rfl
  | cons d items ih => rw [List.foldl_cons, ih]; simp [lists]

theorem readsAs_list {items : List Document} {ts : List Text}
    (h : List.Forall₂ (fun d t => ReadsAs t d) items ts) (l : Layout) (level : Nat) :
    ReadsAs (l.enclose level '[' ']' ts) (.list items) := by
  have hparts : ∀ depth, itemsNesting items ≤ depth →
      List.Forall₂ (lists.ReadsPart depth) items ts := by
    intro depth hdepth
    induction h with
    | nil => exact .nil
    | cons hd _ ih =>
      obtain ⟨hnesting, hnestings⟩ := Nat.max_le.mp hdepth
      exact .cons (hd.item hnesting) (ih hnestings)
  intro limit p rest hp hdepth _
  have hread := lists.readFrom_enclose (hparts _ (Nat.le_refl _)) l level hp hdepth rest
  have hitems : lists.document (items.foldl lists.push lists.start) = .list items := by
    rw [foldl_push_lists]
    simp [lists]
  rwa [hitems] at hread

theorem readsAs_map {pairs : List (Text × Document)} {ts : List Text}
    (h : List.Forall₂ (fun e t => ∃ value, t = writeText e.1 ++ .char ':' :: .char ' ' :: value ∧
      ReadsAs value e.2) pairs ts) (hkeys : HasTextKeys (textEntries pairs)) (l : Layout)
    (level : Nat) : ReadsAs (l.enclose level '\x7b' '\x7d' ts) (.map (textEntries pairs)) := by
  have hparts : ∀ depth, entriesNesting (textEntries pairs) ≤ depth →
      List.Forall₂ (maps.ReadsPart depth) pairs ts := by
    clear hkeys
    intro depth hdepth
    induction h with
    | nil => exact .nil
    | cons hd _ ih =>
      obtain ⟨hnesting, hnestings⟩ := Nat.max_le.mp hdepth
      obtain ⟨value, rfl, hvalue⟩ := hd
      exact .cons (hvalue.entry _ (Nat.max_le.mp hnesting).2) (ih hnestings)
  intro limit p rest hp hdepth _
  have hread := maps.readFrom_enclose (hparts _ (Nat.le_refl _)) l level hp hdepth rest
  have hentries : maps.document (pairs.foldl maps.push maps.start) = .map (textEntries pairs) :=
    congrArg Document.map (foldl_push_maps hkeys [])
  rwa [hentries] at hread

/-! ## Documents -/

theorem listedEntries_eq (entries : List (Document × Document)) :
    listedEntries entries = entries.map fun e => (e.1, listed e.2) := by
  induction entries with
  | nil => rfl
  | cons e entries ih => rw [listedEntries, List.map_cons, ih]

theorem hasTextKeys_listedEntries {entries : List (Document × Document)}
    (h : HasTextKeys entries) : HasTextKeys (listedEntries entries) := by
  rw [listedEntries_eq]
  refine ⟨?_, List.pairwise_map.mpr h.2⟩
  intro e he
  obtain ⟨e, hmem, rfl⟩ := List.mem_map.mp he
  exact h.1 e hmem

mutual

/-- Reading tuples as lists nests collections no deeper. -/
theorem nesting_listed : ∀ d : Document, nesting (listed d) = nesting d
  | .list items | .tuple items => congrArg (· + 1) (itemsNesting_listed items)
  | .map entries => congrArg (· + 1) (entriesNesting_listed entries)
  | .null | .bool _ | .int _ | .real _ | .text _ | .bytes _ | .date _ | .moment _ | .set _ | .node _
  | .link _ => rfl

theorem itemsNesting_listed : ∀ ds : List Document, itemsNesting (listedItems ds) = itemsNesting ds
  | [] => rfl
  | d :: ds => by
    rw [listedItems, itemsNesting, itemsNesting, nesting_listed d, itemsNesting_listed ds]

theorem entriesNesting_listed : ∀ entries : List (Document × Document),
    entriesNesting (listedEntries entries) = entriesNesting entries
  | [] => rfl
  | (key, value) :: entries => by
    rw [listedEntries, entriesNesting, entriesNesting, nesting_listed value,
      entriesNesting_listed entries]

end

variable (l : Layout)

mutual

/-- **A value has a JSON form, which is read as the value wherever one may stand.** -/
theorem exists_writeAt : ∀ d : Document, IsValue d → ∀ level, ∃ t, writeAt l level d = .ok t ∧
    ReadsAs t (listed d)
  | .null, _, _ => ⟨_, rfl, readsAs_null⟩
  | .bool b, _, _ => ⟨_, by cases b <;> rfl, readsAs_bool b⟩
  | .int _, h, _ => ⟨_, rfl, readsAs_int h⟩
  | .text t, _, _ => ⟨_, rfl, readsAs_text t⟩
  | .list items, h, level => by
    obtain ⟨ts, hts, hreads⟩ := exists_writeItems items h (level + 1)
    exact ⟨_, by rw [writeAt, hts]; rfl, readsAs_list hreads l level⟩
  | .tuple items, h, level => by
    obtain ⟨ts, hts, hreads⟩ := exists_writeItems items h (level + 1)
    exact ⟨_, by rw [writeAt, hts]; rfl, readsAs_list hreads l level⟩
  | .map entries, h, level => by
    obtain ⟨ts, pairs, hts, hpairs, hreads⟩ := exists_writeEntries entries h.1.1 h.2 (level + 1)
    refine ⟨_, by rw [writeAt, hts]; rfl, ?_⟩
    rw [listed, hpairs]
    exact readsAs_map hreads (hpairs ▸ hasTextKeys_listedEntries h.1) l level

/-- The same of the items of a list. -/
theorem exists_writeItems : ∀ ds : List Document, AreValues ds → ∀ level,
    ∃ ts, writeItems l level ds = .ok ts ∧ List.Forall₂ (fun d t => ReadsAs t d) (listedItems ds) ts
  | [], _, _ => ⟨[], rfl, .nil⟩
  | d :: ds, h, level => by
    obtain ⟨t, ht, hread⟩ := exists_writeAt d h.1 level
    obtain ⟨ts, hts, hreads⟩ := exists_writeItems ds h.2 level
    exact ⟨t :: ts, by rw [writeItems, ht, hts]; rfl, .cons hread hreads⟩

/-- The same of the entries of a mapping. -/
theorem exists_writeEntries : ∀ entries : List (Document × Document),
    (∀ e ∈ entries, ∃ t, e.1 = .text t) → HaveValues entries → ∀ level,
    ∃ ts pairs, writeEntries l level entries = .ok ts ∧ listedEntries entries = textEntries pairs ∧
      List.Forall₂ (fun e t => ∃ value, t = writeText e.1 ++ .char ':' :: .char ' ' :: value ∧
        ReadsAs value e.2) pairs ts
  | [], _, _, _ => ⟨[], [], rfl, rfl, .nil⟩
  | (key, d) :: entries, hkeys, h, level => by
    obtain ⟨t, ht⟩ := hkeys (key, d) List.mem_cons_self
    obtain rfl : key = .text t := ht
    obtain ⟨value, hvalue, hread⟩ := exists_writeAt d h.1 level
    obtain ⟨ts, pairs, hts, hpairs, hreads⟩ :=
      exists_writeEntries entries (fun e he => hkeys e (List.mem_cons_of_mem _ he)) h.2 level
    refine ⟨_, (t, listed d) :: pairs, by rw [writeEntries, hvalue, hts]; rfl, ?_,
      .cons ⟨value, rfl, hread⟩ hreads⟩
    rw [listedEntries, hpairs]
    rfl

end

/-- **A written value is read as the value with its tuples as lists.** -/
theorem read_write {d : Document} (h : IsValue d) : ∃ t, write l d = .ok t ∧
    ∀ limit, nesting d ≤ limit → read limit t = .ok (listed d) := by
  obtain ⟨t, ht, hread⟩ := exists_writeAt l d h 0
  refine ⟨t, ht, fun limit hlimit => ?_⟩
  have hdepth : Progress.start.levels.length + nesting (listed d) ≤ limit := by
    rw [nesting_listed]
    simpa [Progress.start] using hlimit
  have hstart := hread limit .start [] (.inl rfl) hdepth endsNumber_nil
  rw [List.append_nil] at hstart
  exact hstart.trans (readFrom_nil rfl)

end Treewalk.Json
