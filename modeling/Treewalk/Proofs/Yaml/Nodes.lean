import Mathlib.Data.List.Forall2
import Treewalk.Proofs.Document.Shape
import Treewalk.Proofs.Yaml.Inside
import Treewalk.Yaml.Reader

/-!
# Tokens as nodes

The nodes that are read from the tokens of an outline stand for the document that the outline
denotes. The documents of the nodes are listed in the order of the nodes, and each node fits its
document, given those of its parts (`Node.Fits`). A collection gets its number before its parts do,
so its document is listed before theirs, and its content is filled in when all of them are read.
-/

namespace Treewalk.Yaml

open Text

/-! ## What outlines denote -/

namespace Outline

mutual

/-- Whether an outline is the form of a document. -/
def Denotes : Outline → Document → Prop
  | scalar tag t, d => isScalar d = true ∧ ∀ mark, scalarValue mark tag t = .ok d
  | list _ items, d => ∃ ds, d = .list ds ∧ DenoteItems items ds
  | map _ _ entries, d => ∃ es, d = .map es ∧ HasTextKeys es ∧ DenoteEntries entries es

/-- The same of the items of a list. -/
def DenoteItems : List Outline → List Document → Prop
  | [], ds => ds = []
  | n :: rest, ds => ∃ d ds', ds = d :: ds' ∧ n.Denotes d ∧ DenoteItems rest ds'

/-- The same of the entries of a mapping. -/
def DenoteEntries : List (Outline × Outline) → List (Document × Document) → Prop
  | [], es => es = []
  | (key, value) :: rest, es =>
    ∃ k v es', es = (k, v) :: es' ∧ key.Denotes k ∧ value.Denotes v ∧ DenoteEntries rest es'

end

end Outline

theorem Outline.IsKey.ordinary {n : Outline} (h : n.IsKey) : n.Ordinary := by
  obtain ⟨w, -, rfl⟩ := h
  exact .inl rfl

theorem Outline.IsKey.isList_eq {n : Outline} (h : n.IsKey) : n.isList = false := by
  obtain ⟨w, -, rfl⟩ := h
  rfl

/-! ## Graphs with documents -/

/-- Whether a node stands for a document, given the documents of all nodes. -/
inductive Node.Fits (ds : List Document) : Node → Document → Prop where
  | scalar {tag t d} : isScalar d = true → (∀ mark, scalarValue mark tag t = .ok d) →
    Fits ds ⟨tag, .scalar t⟩ d
  | list {ids items} : List.Forall₂ (fun i d => ds[i]? = some d) ids items →
    Fits ds ⟨.seq, .list ids⟩ (.list items)
  | map {pairs entries} : HasTextKeys entries →
    List.Forall₂ (fun p e => ds[p.1]? = some e.1 ∧ ds[p.2]? = some e.2) pairs entries →
    Fits ds ⟨.map, .map pairs⟩ (.map entries)

variable {ds new more : List Document} {d : Document} {g g' g'' : Graph}

theorem getElem?_append_of_some {i : Nat} (h : ds[i]? = some d) (more : List Document) :
    (ds ++ more)[i]? = some d := by
  obtain ⟨hi, heq⟩ := List.getElem?_eq_some_iff.mp h
  rw [List.getElem?_append_left hi, h]

theorem Node.Fits.append {x : Node} (h : x.Fits ds d) (more : List Document) :
    x.Fits (ds ++ more) d := by
  cases h with
  | scalar hscalar h => exact .scalar hscalar h
  | list h => exact .list (.imp (fun _ _ hi => getElem?_append_of_some hi more) h)
  | map hkeys h =>
    exact .map hkeys (.imp (fun _ _ hp =>
      ⟨getElem?_append_of_some hp.1 more, getElem?_append_of_some hp.2 more⟩) h)

/-- Whether a graph has grown by nodes that stand for documents. -/
structure Graph.Grows (ds : List Document) (g g' : Graph) (new : List Document) : Prop where
  size_eq : g'.size = g.size + new.length
  keeps : ∀ i < g.size, g'[i]? = g[i]?
  fits : ∀ i x d, g.size ≤ i → g'[i]? = some x → (ds ++ new)[i]? = some d → x.Fits (ds ++ new) d

namespace Graph.Grows

theorem refl (ds : List Document) (g : Graph) : g.Grows ds g [] where
  size_eq := rfl
  keeps _ _ := rfl
  fits i x d hi hx _ := by
    obtain ⟨hlt, -⟩ := Array.getElem?_eq_some_iff.mp hx
    exact absurd hlt (Nat.not_lt.mpr hi)

theorem trans (hsize : ds.length = g.size) (h : g.Grows ds g' new)
    (h' : g'.Grows (ds ++ new) g'' more) : g.Grows ds g'' (new ++ more) where
  size_eq := by rw [h'.size_eq, h.size_eq, List.length_append, Nat.add_assoc]
  keeps i hi := by
    rw [h'.keeps i (by rw [h.size_eq]; omega), h.keeps i hi]
  fits i x d hi hx hd := by
    rw [← List.append_assoc] at hd ⊢
    by_cases hlt : i < g'.size
    · rw [h'.keeps i hlt] at hx
      have hin : i < (ds ++ new).length := by
        rw [List.length_append, hsize, ← h.size_eq]
        exact hlt
      rw [List.getElem?_append_left hin] at hd
      exact (h.fits i x d hi hx hd).append more
    · exact h'.fits i x d (Nat.not_lt.mp hlt) hx hd

/-- One more node. -/
theorem push {x : Node} (hsize : ds.length = g.size) (hx : x.Fits (ds ++ [d]) d) :
    g.Grows ds (g.push x) [d] where
  size_eq := Array.size_push x
  keeps i hi := by rw [Array.getElem?_push, if_neg (Nat.ne_of_lt hi)]
  fits i y e hi hy he := by
    have hlt : i < (ds ++ [d]).length := (List.getElem?_eq_some_iff.mp he).1
    rw [List.length_append, List.length_singleton, hsize] at hlt
    obtain rfl : i = g.size := by omega
    rw [Array.getElem?_push, if_pos rfl] at hy
    rw [← hsize, List.getElem?_concat_length] at he
    cases hy
    cases he
    exact hx

/-- A collection whose parts have been added behind it. -/
theorem fill {x : Node} {content : Content} (hsize : ds.length = g.size)
    (h : Grows (ds ++ [d]) (g.push x) g' new)
    (hx : Node.Fits (ds ++ d :: new) ⟨x.tag, content⟩ d) :
    g.Grows ds (g'.fill g.size content) (d :: new) where
  size_eq := by
    unfold Graph.fill
    rw [Array.size_modify, h.size_eq, Array.size_push, List.length_cons]
    omega
  keeps i hi := by
    unfold Graph.fill
    rw [Array.getElem?_modify, if_neg (Nat.ne_of_gt hi),
      h.keeps i (by rw [Array.size_push]; omega), Array.getElem?_push, if_neg (Nat.ne_of_lt hi)]
  fits i y e hi hy he := by
    unfold Graph.fill at hy
    rw [Array.getElem?_modify] at hy
    split at hy
    · next heq =>
      subst heq
      rw [h.keeps _ (by rw [Array.size_push]; omega), Array.getElem?_push, if_pos rfl] at hy
      rw [← hsize, List.getElem?_append_right (Nat.le_refl _), Nat.sub_self] at he
      cases hy
      cases he
      exact hx
    · next hne =>
      have happend : ds ++ d :: new = ds ++ [d] ++ new := by simp
      rw [happend] at he ⊢
      exact h.fits i y e (by rw [Array.size_push]; omega) hy he

end Graph.Grows

/-- Whether a graph has grown by nodes among which there are some for a list of documents. -/
structure Graph.GrowsItems (ds : List Document) (g : Graph) (ids : List NodeId)
    (items : List Document) (g' : Graph) (new : List Document) : Prop where
  grows : g.Grows ds g' new
  listed : List.Forall₂ (fun i d => (ds ++ new)[i]? = some d) ids items
  height_le : itemsHeight items ≤ new.length

/-- Whether a graph has grown by nodes among which there are some for the keys and values of
entries. -/
structure Graph.GrowsEntries (ds : List Document) (g : Graph) (pairs : List (NodeId × NodeId))
    (entries : List (Document × Document)) (g' : Graph) (new : List Document) : Prop where
  grows : g.Grows ds g' new
  listed : List.Forall₂ (fun p e => (ds ++ new)[p.1]? = some e.1 ∧ (ds ++ new)[p.2]? = some e.2)
    pairs entries
  height_le : entriesHeight entries ≤ new.length

variable {ids : List NodeId} {items : List Document} {pairs : List (NodeId × NodeId)}
  {entries : List (Document × Document)}

theorem Graph.Grows.length_eq (h : g.Grows ds g' new) (hsize : ds.length = g.size) :
    (ds ++ new).length = g'.size := by
  rw [List.length_append, h.size_eq, hsize]

/-- The first of the new nodes has the next number. -/
theorem getElem?_size (hsize : ds.length = g.size) (d : Document) (new : List Document) :
    (ds ++ d :: new)[g.size]? = some d := by
  rw [← hsize, List.getElem?_append_right (Nat.le_refl _), Nat.sub_self]
  rfl

theorem Graph.GrowsItems.cons (hsize : ds.length = g.size) (h : g.Grows ds g' (d :: new))
    (hheight : height d ≤ (d :: new).length)
    (h' : g'.GrowsItems (ds ++ d :: new) ids items g'' more) :
    g.GrowsItems ds (g.size :: ids) (d :: items) g'' (d :: new ++ more) where
  grows := h.trans hsize h'.grows
  listed := by
    rw [← List.append_assoc]
    exact .cons (getElem?_append_of_some (getElem?_size hsize d new) more) h'.listed
  height_le := by
    have hle := h'.height_le
    rw [itemsHeight, List.length_append]
    omega

theorem Graph.GrowsEntries.cons {k v : Document} {new₁ new₂ : List Document} {g₁ g₂ : Graph}
    (hsize : ds.length = g.size) (hkey : g.Grows ds g₁ (k :: new₁))
    (hvalue : g₁.Grows (ds ++ k :: new₁) g₂ (v :: new₂))
    (hheight : height k ≤ (k :: new₁).length ∧ height v ≤ (v :: new₂).length)
    (h' : g₂.GrowsEntries (ds ++ k :: new₁ ++ v :: new₂) pairs entries g'' more) :
    g.GrowsEntries ds ((g.size, g₁.size) :: pairs) ((k, v) :: entries) g''
      (k :: new₁ ++ v :: new₂ ++ more) where
  grows := (hkey.trans hsize hvalue).trans hsize (by rw [← List.append_assoc]; exact h'.grows)
  listed := by
    rw [← List.append_assoc, ← List.append_assoc]
    refine .cons ⟨?_, ?_⟩ h'.listed
    · exact getElem?_append_of_some
        (getElem?_append_of_some (getElem?_size hsize k new₁) (v :: new₂)) more
    · exact getElem?_append_of_some (getElem?_size (hkey.length_eq hsize) v new₂) more
  height_le := by
    have hle := h'.height_le
    rw [entriesHeight, List.length_append, List.length_append]
    omega

/-- A list whose items have been read. -/
theorem Graph.GrowsItems.fill (hsize : ds.length = g.size)
    (h : Graph.GrowsItems (ds ++ [.list items]) (g.push ⟨.seq, .list []⟩) ids items g' new) :
    g.Grows ds (g'.fill g.size (.list ids)) (.list items :: new) ∧
      height (.list items) ≤ (Document.list items :: new).length := by
  have hlisted := h.listed
  rw [List.append_assoc, List.singleton_append] at hlisted
  exact ⟨.fill hsize h.grows (.list hlisted), Nat.succ_le_succ h.height_le⟩

/-- A mapping whose entries have been read. -/
theorem Graph.GrowsEntries.fill (hsize : ds.length = g.size) (hkeys : HasTextKeys entries)
    (h : Graph.GrowsEntries (ds ++ [.map entries]) (g.push ⟨.map, .map []⟩) pairs entries g' new) :
    g.Grows ds (g'.fill g.size (.map pairs)) (.map entries :: new) ∧
      height (.map entries) ≤ (Document.map entries :: new).length := by
  have hlisted := h.listed
  rw [List.append_assoc, List.singleton_append] at hlisted
  exact ⟨.fill hsize h.grows (.map hkeys hlisted), Nat.succ_le_succ h.height_le⟩

theorem length_push (hsize : ds.length = g.size) (d : Document) (x : Node) :
    (ds ++ [d]).length = (g.push x).size := by
  rw [List.length_append, Array.size_push, hsize]
  rfl

/-! ## Reading -/

namespace Reading

/-- The state in front of tokens, without anchors. -/
def before (ts : List Token) (g : Graph) : Reading := ⟨ts, ts.length, g, []⟩

end Reading

namespace Node

variable {handles : List (String × String)} {depth : Nat} {place : Node.Place}
  {ts rest : List Token}

theorem read_scalar (t : Text) (plain : Bool) (rest : List Token) (g : Graph) :
    read handles (depth + 1) place (.before (.scalar t plain :: rest) g) =
      .ok (g.size, .before rest (g.push ⟨scalarTag plain t none, .scalar t⟩)) :=
  rfl

theorem read_listOpen (h : flowItems (read handles depth .flow) true
      (.before ts (g.push ⟨.seq, .list []⟩)) = .ok (ids, .before rest g')) :
    read handles (depth + 1) place (.before (.listOpen :: ts) g) =
      .ok (g.size, .before rest (g'.fill g.size (.list ids))) := by
  have hread : read handles (depth + 1) place (.before (.listOpen :: ts) g) = (do
      let result ← flowItems (read handles depth .flow) true (.before ts (g.push ⟨.seq, .list []⟩))
      return (g.size, result.2.fill g.size (.list result.1))) := rfl
  rw [hread, h]
  rfl

theorem read_mapOpen (h : flowEntries (read handles depth .flow) true
      (.before ts (g.push ⟨.map, .map []⟩)) = .ok (pairs, .before rest g')) :
    read handles (depth + 1) place (.before (.mapOpen :: ts) g) =
      .ok (g.size, .before rest (g'.fill g.size (.map pairs))) := by
  have hread : read handles (depth + 1) place (.before (.mapOpen :: ts) g) = (do
      let result ← flowEntries (read handles depth .flow) true (.before ts (g.push ⟨.map, .map []⟩))
      return (g.size, result.2.fill g.size (.map result.1))) := rfl
  rw [hread, h]
  rfl

theorem read_dash (h : flushItems (read handles depth .block)
      (.before (.dash :: ts) (g.push ⟨.seq, .list []⟩)) = .ok (ids, .before rest g')) :
    read handles (depth + 1) .flush (.before (.dash :: ts) g) =
      .ok (g.size, .before rest (g'.fill g.size (.list ids))) := by
  have hread : read handles (depth + 1) .flush (.before (.dash :: ts) g) = (do
      let result ← flushItems (read handles depth .block)
        (.before (.dash :: ts) (g.push ⟨.seq, .list []⟩))
      return (g.size, result.2.fill g.size (.list result.1))) := rfl
  rw [hread, h]
  rfl

theorem read_blockMap (hplace : place ≠ .flow) (h : blockEntries (read handles depth .flush)
      (.before ts (g.push ⟨.map, .map []⟩)) = .ok (pairs, .before rest g')) :
    read handles (depth + 1) place (.before (.blockMap :: ts) g) =
      .ok (g.size, .before rest (g'.fill g.size (.map pairs))) := by
  have hread : read handles (depth + 1) place (.before (.blockMap :: ts) g) = (do
      let result ← blockEntries (read handles depth .flush) (.before ts (g.push ⟨.map, .map []⟩))
      return (g.size, result.2.fill g.size (.map result.1))) := by
    cases place with
    | flow => exact absurd rfl hplace
    | block | flush => rfl
  rw [hread, h]
  rfl

/-- Whether a node may start with a token, wherever it stands. -/
def startsNode : Token → Bool
  | .scalar .. | .listOpen | .mapOpen | .blockMap => true
  | _ => false

section

variable {node : Reading → Except YamlFault (NodeId × Reading)} {t : Token} {i j : NodeId}
  {us : List Token}

/-- Whether a token stands behind a key on a line of its own that has no value. -/
def endsBlockEntry : Token → Bool
  | .key | .value | .blockEnd => true
  | _ => false

/-- Whether a token closes a flow mapping. -/
def closesMap : Token → Bool
  | .mapClose => true
  | _ => false

/-- Whether a token is a comma. -/
def isComma : Token → Bool
  | .comma => true
  | _ => false

/-- Whether a token stands behind a key between brackets that has no value. -/
def endsFlowEntry (t : Token) : Bool := closesMap t || isComma t

theorem flushItems_dash (ht : startsNode t = true)
    (hnode : node (.before (t :: ts) g) = .ok (i, .before us g'))
    (hless : us.length ≤ ts.length)
    (h : flushItems node (.before us g') = .ok (ids, .before rest g'')) :
    flushItems node (.before (.dash :: t :: ts) g) = .ok (i :: ids, .before rest g'') := by
  have hread : flushItems node (.before (.dash :: t :: ts) g) = (do
      let first ← node (.before (t :: ts) g)
      if first.2.left < ts.length + 2 then
        let others ← flushItems node first.2
        return (first.1 :: others.1, others.2)
      else first.2.fault) := by
    rw [flushItems]
    cases t <;> first | rfl | cases ht
  have hleft : us.length < ts.length + 2 := by omega
  rw [hread, hnode]
  show (if us.length < ts.length + 2 then _ else _) = _
  rw [if_pos hleft, h]
  rfl

theorem flushItems_nil (hrest : ∀ ts, rest ≠ .dash :: ts) :
    flushItems node (.before rest g) = .ok ([], .before rest g) := by
  rw [flushItems]
  cases rest with
  | nil => rfl
  | cons t ts =>
    cases t with
    | dash => exact absurd rfl (hrest ts)
    | _ => rfl

theorem flowItems_cons (isFirst : Bool) (ht : startsNode t = true)
    (hnode : node (.before (t :: ts) g) = .ok (i, .before us g'))
    (hless : us.length ≤ ts.length)
    (h : flowItems node false (.before us g') = .ok (ids, .before rest g'')) :
    flowItems node isFirst (.before ((if isFirst then [] else [.comma]) ++ t :: ts) g) =
      .ok (i :: ids, .before rest g'') := by
  obtain ⟨left, hleft, hread⟩ : ∃ left, ts.length < left ∧
      flowItems node isFirst (.before ((if isFirst then [] else [.comma]) ++ t :: ts) g) = (do
        let first ← node (.before (t :: ts) g)
        if first.2.left < left then
          let others ← flowItems node false first.2
          return (first.1 :: others.1, others.2)
        else first.2.fault) := by
    cases isFirst with
    | true =>
      refine ⟨ts.length + 1, Nat.lt_succ_self _, ?_⟩
      rw [flowItems]
      cases t <;> first | rfl | cases ht
    | false =>
      refine ⟨ts.length + 2, by omega, ?_⟩
      rw [flowItems]
      cases t <;> first | rfl | cases ht
  rw [hread, hnode]
  show (if us.length < left then _ else _) = _
  rw [if_pos (Nat.lt_of_le_of_lt hless hleft), h]
  rfl

theorem flowItems_nil (isFirst : Bool) :
    flowItems node isFirst (.before (.listClose :: rest) g) = .ok ([], .before rest g) := by
  rw [flowItems]
  rfl

/-- A value that may not be missing. -/
theorem valueOrMissing_value {mayMiss : Token → Bool} {s : Reading} (hmiss : mayMiss t = false)
    (hnode : node (.before (t :: ts) g) = .ok (j, s)) :
    valueOrMissing node mayMiss (.before (.value :: t :: ts) g) = .ok (j, s) := by
  have hpeek : ¬mayMiss (Reading.before (t :: ts) g).peek = true := by
    show ¬mayMiss t = true
    rw [hmiss]
    exact Bool.false_ne_true
  show nodeUnless node mayMiss (.before (t :: ts) g) = _
  unfold nodeUnless
  rw [if_neg hpeek, hnode]

theorem blockEntries_key {t' : Token} {ts' : List Token} {g₁ : Graph} (ht : startsNode t = true)
    (ht' : startsNode t' = true ∨ t' = .dash)
    (hkey : node (.before (t :: ts) g) = .ok (i, .before (.value :: t' :: ts') g₁))
    (hvalue : node (.before (t' :: ts') g₁) = .ok (j, .before us g'))
    (hless : us.length ≤ ts.length)
    (h : blockEntries node (.before us g') = .ok (pairs, .before rest g'')) :
    blockEntries node (.before (.key :: t :: ts) g) = .ok ((i, j) :: pairs, .before rest g'') := by
  have hread : blockEntries node (.before (.key :: t :: ts) g) = (do
      let key ← node (.before (t :: ts) g)
      let value ← valueOrMissing node endsBlockEntry key.2
      if value.2.left < ts.length + 2 then
        let others ← blockEntries node value.2
        return ((key.1, value.1) :: others.1, others.2)
      else value.2.fault) := by
    rw [blockEntries]
    cases t <;> first | rfl | cases ht
  have hleft : us.length < ts.length + 2 := by omega
  rw [hread, hkey]
  dsimp only [bind, Except.bind]
  rw [valueOrMissing_value (by cases t' <;> simp_all [startsNode, endsBlockEntry]) hvalue]
  show (if us.length < ts.length + 2 then _ else _) = _
  rw [if_pos hleft, h]
  rfl

theorem blockEntries_nil :
    blockEntries node (.before (.blockEnd :: rest) g) = .ok ([], .before rest g) := by
  rw [blockEntries]
  rfl

theorem flowEntries_cons {t' : Token} {ts' : List Token} {g₁ : Graph} (isFirst : Bool)
    (ht : startsNode t = true) (ht' : startsNode t' = true)
    (hkey : node (.before (t :: ts) g) = .ok (i, .before (.value :: t' :: ts') g₁))
    (hvalue : node (.before (t' :: ts') g₁) = .ok (j, .before us g'))
    (hless : us.length ≤ ts.length)
    (h : flowEntries node false (.before us g') = .ok (pairs, .before rest g'')) :
    flowEntries node isFirst (.before ((if isFirst then [] else [.comma]) ++ .key :: t :: ts) g) =
      .ok ((i, j) :: pairs, .before rest g'') := by
  have hpair : flowPair node closesMap (.before (.key :: t :: ts) g) =
      .ok ((i, j), .before us g') := by
    have hread : flowPair node closesMap (.before (.key :: t :: ts) g) = (do
        let key ← node (.before (t :: ts) g)
        let value ← valueOrMissing node endsFlowEntry key.2
        return ((key.1, value.1), value.2)) := by
      cases t <;> first | rfl | cases ht
    rw [hread, hkey]
    dsimp only [bind, Except.bind]
    rw [valueOrMissing_value (by cases t' <;> first | rfl | cases ht') hvalue]
    rfl
  obtain ⟨left, hleft, hread⟩ : ∃ left, ts.length < left ∧ flowEntries node isFirst
      (.before ((if isFirst then [] else [.comma]) ++ .key :: t :: ts) g) = (do
        let first ← flowPair node closesMap (.before (.key :: t :: ts) g)
        if first.2.left < left then
          let others ← flowEntries node false first.2
          return (first.1 :: others.1, others.2)
        else first.2.fault) := by
    cases isFirst with
    | true =>
      refine ⟨ts.length + 2, by omega, ?_⟩
      rw [flowEntries]
      rfl
    | false =>
      refine ⟨ts.length + 3, by omega, ?_⟩
      rw [flowEntries]
      rfl
  rw [hread, hpair]
  show (if us.length < left then _ else _) = _
  rw [if_pos (Nat.lt_of_le_of_lt hless hleft), h]
  rfl

theorem flowEntries_nil (isFirst : Bool) :
    flowEntries node isFirst (.before (.mapClose :: rest) g) = .ok ([], .before rest g) := by
  rw [flowEntries]
  rfl

end

/-! ## Outlines -/

open Outline

/-- The first token of an outline starts a node; only a list on lines of its own starts with a dash.
-/
theorem exists_tokens (n : Outline) (inFlow : Bool) : ∃ t ts, n.tokens inFlow = t :: ts ∧
    (startsNode t = true ∨ t = .dash ∧ inFlow = false ∧ n.isList = true) := by
  cases n with
  | scalar tag t => exact ⟨_, _, rfl, .inl rfl⟩
  | list inside items =>
    rw [tokens]
    split
    · exact ⟨_, _, rfl, .inl rfl⟩
    · next hinside =>
      cases items with
      | nil => simp at hinside
      | cons n items => exact ⟨_, _, rfl, .inr ⟨rfl, by simpa using (Bool.or_eq_false_iff.mp
          (Bool.or_eq_false_iff.mp (Bool.not_eq_true _ ▸ hinside)).1).1, rfl⟩⟩
  | map tag inside entries =>
    rw [tokens]
    split <;> exact ⟨_, _, rfl, .inl rfl⟩

/-- The tag of an ordinary scalar is told by its text and its style. -/
theorem scalarTag_eq {tag : Tag} {t : Text} (hs : IsOrdinaryScalar tag t) (inFlow : Bool) :
    scalarTag (ScalarStyle.choose inFlow false tag t = .plain) t none = tag := by
  have hquoted (hstyle : ScalarStyle.choose inFlow false tag t ≠ .plain) : .str = tag := by
    by_contra htag
    exact hstyle (choose_of_ne_str hs (Ne.symm htag))
  rcases choose_cases hs inFlow false with ⟨hstyle, cs, rfl, -, htag, -⟩ | ⟨hstyle, -⟩ | hstyle
  · rw [hstyle, ← htag]
    show Tag.resolve (ofChars cs) = _
    unfold Tag.resolve
    rw [toChars?_ofChars]
    rfl
  · rw [hstyle]
    exact hquoted (by rw [hstyle]; nofun)
  · rw [hstyle]
    exact hquoted (by rw [hstyle]; nofun)

/-- Whether tokens in front of others are read as a node that stands for a document. -/
def ReadsNode (node : Reading → Except YamlFault (NodeId × Reading)) (us rest : List Token)
    (d : Document) : Prop :=
  ∀ g ds, ds.length = g.size → ∃ g' new,
    node (.before (us ++ rest) g) = .ok (g.size, .before rest g') ∧
      g.Grows ds g' (d :: new) ∧ height d ≤ (d :: new).length

/-- A key and its value are read one after the other, in front of further entries. -/
theorem ReadsNode.entry {node : Reading → Except YamlFault (NodeId × Reading)}
    {us us' ts : List Token} {k v : Document} (hkey : ReadsNode node us (.value :: (us' ++ ts)) k)
    (hvalue : ReadsNode node us' ts v) (hsize : ds.length = g.size) :
    ∃ g₁ g₂ new,
      node (.before (us ++ .value :: (us' ++ ts)) g) =
        .ok (g.size, .before (.value :: (us' ++ ts)) g₁) ∧
      node (.before (us' ++ ts) g₁) = .ok (g₁.size, .before ts g₂) ∧
      (ds ++ new).length = g₂.size ∧
      ∀ {pairs entries g' more}, g₂.GrowsEntries (ds ++ new) pairs entries g' more →
        g.GrowsEntries ds ((g.size, g₁.size) :: pairs) ((k, v) :: entries) g' (new ++ more) := by
  obtain ⟨g₁, new₁, hreadKey, hgrowsKey, hlowKey⟩ := hkey g ds hsize
  have hsize₁ := hgrowsKey.length_eq hsize
  obtain ⟨g₂, new₂, hreadValue, hgrowsValue, hlowValue⟩ := hvalue g₁ _ hsize₁
  refine ⟨g₁, g₂, k :: new₁ ++ v :: new₂, hreadKey, hreadValue, ?_, fun hmore => ?_⟩
  · rw [← List.append_assoc]
    exact hgrowsValue.length_eq hsize₁
  · rw [← List.append_assoc] at hmore
    exact .cons hsize hgrowsKey hgrowsValue ⟨hlowKey, hlowValue⟩ hmore

mutual

/-- The tokens of an outline are read as a node that stands for what it denotes. -/
theorem read_tokens : ∀ n : Outline, n.Ordinary → ∀ {d}, n.Denotes d → ∀ {depth}, height d ≤ depth →
    ∀ (place : Node.Place) inFlow, inFlow = decide (place = .flow) →
    (n.isList = true → place ≠ .block) → ∀ rest : List Token,
    (place = .flush → ∀ ts, rest ≠ .dash :: ts) →
    ReadsNode (read handles depth place) (n.tokens inFlow) rest d
  | n, _, d, _, 0, hdepth, _, _, _, _, _, _ => absurd hdepth (Nat.not_le.mpr (height_pos d))
  | .scalar tag t, hn, d, hd, depth + 1, _, place, inFlow, _, _, rest, _ => by
    intro g ds hsize
    obtain ⟨hscalar, hvalue⟩ := hd
    refine ⟨_, [], read_scalar .., .push hsize ?_, Nat.le_of_eq (height_of_isScalar hscalar)⟩
    rw [scalarTag_eq hn]
    exact .scalar hscalar hvalue
  | .list _ items, hn, d, hd, depth + 1, hdepth, place, inFlow, hflow, hplace, rest, hrest => by
    intro g ds hsize
    obtain ⟨docs, rfl, hd⟩ := hd
    have hdepth : itemsHeight docs ≤ depth := Nat.le_of_succ_le_succ hdepth
    rw [tokens]
    split
    · obtain ⟨ids, g', new, hread, hgrows⟩ := flowItems_tokens items hn hd hdepth true rest _ _
        (length_push hsize (.list docs) ⟨.seq, .list []⟩)
      obtain ⟨hfill, hheight⟩ := hgrows.fill hsize
      refine ⟨_, new, ?_, hfill, hheight⟩
      rw [List.cons_append, List.append_assoc]
      exact read_listOpen hread
    · next hinside =>
      obtain rfl : place = .flush := by
        cases place with
        | flow => simp [hflow] at hinside
        | block => exact absurd rfl (hplace rfl)
        | flush => rfl
      cases items with
      | nil => simp at hinside
      | cons n items =>
        obtain ⟨ids, g', new, hread, hgrows⟩ := flushItems_tokens (n :: items) hn hd hdepth
          rest (hrest rfl) _ _ (length_push hsize (.list docs) ⟨.seq, .list []⟩)
        obtain ⟨hfill, hheight⟩ := hgrows.fill hsize
        exact ⟨_, new, read_dash hread, hfill, hheight⟩
  | .map tag inside entries, hn, d, hd, depth + 1, hdepth, place, inFlow, hflow, _, rest, _ => by
    intro g ds hsize
    obtain ⟨es, rfl, hkeys, hd⟩ := hd
    have hdepth : entriesHeight es ≤ depth := Nat.le_of_succ_le_succ hdepth
    rw [tokens]
    split
    · obtain ⟨ids, g', new, hread, hgrows⟩ := flowEntries_tokens entries hn.2 hd hdepth true rest
        _ _ (length_push hsize (.map es) ⟨.map, .map []⟩)
      obtain ⟨hfill, hheight⟩ := hgrows.fill hsize hkeys
      refine ⟨_, new, ?_, hfill, hheight⟩
      rw [List.cons_append, List.append_assoc]
      exact read_mapOpen hread
    · next hinside =>
      have hplace : place ≠ .flow := by
        rintro rfl
        simp [hflow] at hinside
      obtain ⟨ids, g', new, hread, hgrows⟩ := blockEntries_tokens entries hn.2 hd hdepth rest _ _
        (length_push hsize (.map es) ⟨.map, .map []⟩)
      obtain ⟨hfill, hheight⟩ := hgrows.fill hsize hkeys
      refine ⟨_, new, ?_, hfill, hheight⟩
      rw [List.cons_append, List.append_assoc]
      exact read_blockMap hplace hread

/-- The tokens of items between brackets are read as nodes. -/
theorem flowItems_tokens : ∀ items : List Outline, OrdinaryItems items → ∀ {docs},
    DenoteItems items docs → ∀ {depth}, itemsHeight docs ≤ depth → ∀ isFirst rest g ds,
    ds.length = g.size → ∃ ids g' new, flowItems (read handles depth .flow) isFirst
        (.before (memberTokens isFirst items ++ .listClose :: rest) g) =
          .ok (ids, .before rest g') ∧
      g.GrowsItems ds ids docs g' new
  | [], _, docs, hd, depth, _, isFirst, rest, g, ds, _ => by
    obtain rfl := hd
    exact ⟨[], g, [], flowItems_nil isFirst, .refl ds g, .nil, Nat.le_refl 0⟩
  | n :: items, hn, docs, hd, depth, hdepth, isFirst, rest, g, ds, hsize => by
    obtain ⟨d, docs, rfl, hd, hds⟩ := hd
    obtain ⟨hheight, hheights⟩ := Nat.max_le.mp hdepth
    obtain ⟨g₁, new₁, hnode, hgrows, hlow⟩ := read_tokens n hn.2.1 hd hheight .flow true rfl nofun
      (memberTokens false items ++ .listClose :: rest) nofun g ds hsize
    obtain ⟨ids, g₂, new₂, hrest, hmore⟩ :=
      flowItems_tokens items hn.2.2 hds hheights false rest _ _ (hgrows.length_eq hsize)
    refine ⟨_, _, _, ?_, .cons hsize hgrows hlow hmore⟩
    obtain ⟨t, ts, htokens, ht | ⟨-, h, -⟩⟩ := exists_tokens n true
    · rw [htokens] at hnode
      rw [memberTokens, htokens, List.append_assoc, List.append_assoc]
      exact flowItems_cons isFirst ht hnode (by simp) hrest
    · exact nomatch h

/-- The tokens of items on lines of their own are read as nodes. -/
theorem flushItems_tokens : ∀ items : List Outline, OrdinaryItems items → ∀ {docs},
    DenoteItems items docs → ∀ {depth}, itemsHeight docs ≤ depth → ∀ rest,
    (∀ ts, rest ≠ .dash :: ts) → ∀ g ds, ds.length = g.size → ∃ ids g' new,
      flushItems (read handles depth .block) (.before (itemTokens items ++ rest) g) =
        .ok (ids, .before rest g') ∧
      g.GrowsItems ds ids docs g' new
  | [], _, docs, hd, depth, _, rest, hends, g, ds, _ => by
    obtain rfl := hd
    exact ⟨[], g, [], flushItems_nil hends, .refl ds g, .nil, Nat.le_refl 0⟩
  | n :: items, hn, docs, hd, depth, hdepth, rest, hends, g, ds, hsize => by
    obtain ⟨d, docs, rfl, hd, hds⟩ := hd
    obtain ⟨hheight, hheights⟩ := Nat.max_le.mp hdepth
    obtain ⟨g₁, new₁, hnode, hgrows, hlow⟩ := read_tokens n hn.2.1 hd hheight .block false rfl
      (by simp [hn.1]) (itemTokens items ++ rest) nofun g ds hsize
    obtain ⟨ids, g₂, new₂, hrest, hmore⟩ :=
      flushItems_tokens items hn.2.2 hds hheights rest hends _ _ (hgrows.length_eq hsize)
    refine ⟨_, _, _, ?_, .cons hsize hgrows hlow hmore⟩
    obtain ⟨t, ts, htokens, ht | ⟨-, -, h⟩⟩ := exists_tokens n false
    · rw [htokens] at hnode
      rw [itemTokens, htokens, List.cons_append, List.append_assoc]
      exact flushItems_dash ht hnode (by simp) hrest
    · exact absurd h (by rw [hn.1]; exact Bool.false_ne_true)

/-- The tokens of entries between brackets are read as nodes. -/
theorem flowEntries_tokens : ∀ entries : List (Outline × Outline), OrdinaryEntries entries →
    ∀ {es}, DenoteEntries entries es → ∀ {depth}, entriesHeight es ≤ depth → ∀ isFirst rest g ds,
    ds.length = g.size → ∃ pairs g' new, flowEntries (read handles depth .flow) isFirst
        (.before (pairTokens isFirst entries ++ .mapClose :: rest) g) =
          .ok (pairs, .before rest g') ∧
      g.GrowsEntries ds pairs es g' new
  | [], _, es, hd, depth, _, isFirst, rest, g, ds, _ => by
    obtain rfl := hd
    exact ⟨[], g, [], flowEntries_nil isFirst, .refl ds g, .nil, Nat.le_refl 0⟩
  | (key, value) :: entries, hn, es, hd, depth, hdepth, isFirst, rest, g, ds, hsize => by
    obtain ⟨k, v, es, rfl, hdkey, hdvalue, hds⟩ := hd
    obtain ⟨hheight, hheights⟩ := Nat.max_le.mp hdepth
    obtain ⟨hheightKey, hheightValue⟩ := Nat.max_le.mp hheight
    obtain ⟨hkey, hvalue, hn⟩ := hn
    obtain ⟨g₁, g₂, new, hreadKey, hreadValue, hsize₂, hcons⟩ := ReadsNode.entry
      (read_tokens key hkey.ordinary hdkey hheightKey .flow true rfl nofun _ nofun)
      (read_tokens value hvalue hdvalue hheightValue .flow true rfl nofun
        (pairTokens false entries ++ .mapClose :: rest) nofun) hsize
    obtain ⟨pairs, g₃, more, hrest, hmore⟩ :=
      flowEntries_tokens entries hn hds hheights false rest g₂ _ hsize₂
    refine ⟨_, _, _, ?_, hcons hmore⟩
    obtain ⟨t, ts, htokens, ht | ⟨-, h, -⟩⟩ := exists_tokens key true
    · obtain ⟨t', ts', htokens', ht' | ⟨-, h, -⟩⟩ := exists_tokens value true
      · rw [htokens, htokens'] at hreadKey
        rw [htokens'] at hreadValue
        have hall := flowEntries_cons isFirst ht ht' hreadKey hreadValue
          (by simp; omega) hrest
        rw [pairTokens, htokens, htokens']
        simpa using hall
      · exact nomatch h
    · exact nomatch h

/-- The tokens of entries on lines of their own are read as nodes. -/
theorem blockEntries_tokens : ∀ entries : List (Outline × Outline), OrdinaryEntries entries →
    ∀ {es}, DenoteEntries entries es → ∀ {depth}, entriesHeight es ≤ depth → ∀ rest g ds,
    ds.length = g.size → ∃ pairs g' new,
      blockEntries (read handles depth .flush)
        (.before (entryTokens entries ++ .blockEnd :: rest) g) = .ok (pairs, .before rest g') ∧
      g.GrowsEntries ds pairs es g' new
  | [], _, es, hd, depth, _, rest, g, ds, _ => by
    obtain rfl := hd
    exact ⟨[], g, [], blockEntries_nil, .refl ds g, .nil, Nat.le_refl 0⟩
  | (key, value) :: entries, hn, es, hd, depth, hdepth, rest, g, ds, hsize => by
    obtain ⟨k, v, es, rfl, hdkey, hdvalue, hds⟩ := hd
    obtain ⟨hheight, hheights⟩ := Nat.max_le.mp hdepth
    obtain ⟨hheightKey, hheightValue⟩ := Nat.max_le.mp hheight
    obtain ⟨hkey, hvalue, hn⟩ := hn
    have hends : ∀ ts, entryTokens entries ++ .blockEnd :: rest ≠ .dash :: ts := by
      cases entries with
      | nil => nofun
      | cons entry entries => nofun
    obtain ⟨g₁, g₂, new, hreadKey, hreadValue, hsize₂, hcons⟩ := ReadsNode.entry
      (read_tokens key hkey.ordinary hdkey hheightKey .flush false rfl nofun _ nofun)
      (read_tokens value hvalue hdvalue hheightValue .flush false rfl nofun
        (entryTokens entries ++ .blockEnd :: rest) fun _ => hends) hsize
    obtain ⟨pairs, g₃, more, hrest, hmore⟩ :=
      blockEntries_tokens entries hn hds hheights rest g₂ _ hsize₂
    refine ⟨_, _, _, ?_, hcons hmore⟩
    obtain ⟨t, ts, htokens, ht | ⟨-, -, h⟩⟩ := exists_tokens key false
    · obtain ⟨t', ts', htokens', ht'⟩ := exists_tokens value false
      rw [htokens, htokens'] at hreadKey
      rw [htokens'] at hreadValue
      have hall := blockEntries_key ht (ht'.imp_right And.left) hreadKey hreadValue
          (by simp; omega) hrest
      rw [entryTokens, htokens, htokens']
      simpa using hall
    · exact absurd h (by rw [hkey.isList_eq]; exact Bool.false_ne_true)

end

/-! ## Documents -/

/-- A document without a mark or a directive in front of it. -/
theorem ofTokens?_of_read {t : Token} {i : NodeId} (ht : startsNode t = true)
    (hread : read standardHandles depthLimit .block (.before (t :: ts) #[]) =
      .ok (i, .before [.finish] g)) : ofTokens? (t :: ts) = .ok (some (g, i)) := by
  unfold ofTokens?
  cases t with
  | scalar | listOpen | mapOpen | blockMap =>
    show ((read standardHandles depthLimit .block (.before _ #[]) >>= fun r => .ok (some r)) >>=
      _) = _
    rw [hread]
    rfl
  | _ => cases ht

/-- **The tokens of an outline are read as a graph that stands for what the outline denotes.** -/
theorem ofTokens?_tokens (n : Outline) (hn : n.Ordinary) (hlist : n.isList = false)
    (hd : n.Denotes d) (hheight : height d ≤ depthLimit) :
    ∃ g new, ofTokens? (n.tokens false ++ [.finish]) = .ok (some (g, 0)) ∧
      Graph.Grows [] #[] g (d :: new) ∧ height d ≤ g.size := by
  obtain ⟨g, new, hread, hgrows, hlow⟩ := read_tokens n hn hd hheight .block false rfl
    (by simp [hlist]) [.finish] nofun #[] [] rfl
  obtain ⟨t, ts, htokens, ht | ⟨-, -, h⟩⟩ := exists_tokens n false
  · rw [htokens] at hread ⊢
    refine ⟨g, new, ofTokens?_of_read ht hread, hgrows, ?_⟩
    rw [hgrows.size_eq]
    exact Nat.le_trans hlow (Nat.le_add_left _ _)
  · exact absurd h (by rw [hlist]; exact Bool.false_ne_true)

end Node

end Treewalk.Yaml
