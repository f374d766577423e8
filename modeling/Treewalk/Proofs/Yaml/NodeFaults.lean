import Treewalk.Proofs.Outcome
import Treewalk.Proofs.Yaml.Graph
import Treewalk.Yaml.Node

/-!
# Why nodes cannot be read

The nodes of tokens are read, or there is a fault that the tokens hold, or one of the reader's own
(`CannotRead`). Where no tag is among the tokens, every node has the tag that its content tells
(`Node.IsUntagged`).

A collection gets its tag before its parts are read, and its content after them. So the readers are
followed with what they do to the graph: it gets more nodes, and those that it has keep their tags
(`Reading.Leads`).
-/

namespace Treewalk.Yaml

/-- Why no nodes can be read from tokens. -/
inductive CannotRead (ts : List Token) : YamlFault → Prop where
  | malformed : CannotRead ts .malformed
  | tooDeep : CannotRead ts .tooDeep
  /-- The tokens hold the fault. -/
  | token {f} : .fault f ∈ ts → CannotRead ts f

/-- Whether there is a tag among tokens. -/
def GivesTag (ts : List Token) : Prop := ∃ handle suffix, .tag handle suffix ∈ ts

/-- Whether a node of tokens has a tag that it gets where none is given. -/
inductive Node.IsUntagged (ts : List Token) : Node → Prop where
  | list {items} : IsUntagged ts ⟨.seq, .list items⟩
  | map {entries} : IsUntagged ts ⟨.map, .map entries⟩
  | quoted {t} : IsUntagged ts ⟨.str, .scalar t⟩
  | plain {t} : t = [] ∨ .scalar t true ∈ ts → IsUntagged ts ⟨.resolve t, .scalar t⟩

variable {ts : List Token}

theorem Node.isUntagged_missing : Node.missing.IsUntagged ts := by
  have hnull : Tag.resolve [] = .null := by decide
  unfold Node.missing
  rw [← hnull]
  exact .plain (.inl rfl)

namespace Reading

/-- Whether a state reads the tokens of a text, and no node has been tagged unless there is a tag
among the tokens. -/
structure IsOf (ts : List Token) (s : Reading) : Prop where
  rest : s.rest ⊆ ts
  graph : GivesTag ts ∨ ∀ n ∈ s.graph, n.IsUntagged ts

/-- Whether a state of the same tokens is reached, in which all nodes have kept their tags. -/
structure Leads (ts : List Token) (s s' : Reading) : Prop where
  isOf : s'.IsOf ts
  size_le : s.graph.size ≤ s'.graph.size
  tag_eq : ∀ i < s.graph.size, s'.graph.tag i = s.graph.tag i

/-- Whether a reader leads on from a state, or ends with a fault of reading. -/
abbrev LeadsOn {α : Type} (ts : List Token) (s : Reading) (x : Except YamlFault (α × Reading)) :
    Prop :=
  Meets (CannotRead ts) (fun r => s.Leads ts r.2) x

variable {s s' s'' : Reading} {α : Type}

theorem Leads.trans (h : s.Leads ts s') (h' : s'.Leads ts s'') : s.Leads ts s'' where
  isOf := h'.isOf
  size_le := Nat.le_trans h.size_le h'.size_le
  tag_eq i hi := (h'.tag_eq i (Nat.lt_of_lt_of_le hi h.size_le)).trans (h.tag_eq i hi)

theorem Leads.on {x : Except YamlFault (α × Reading)} (h : s.Leads ts s') (hx : LeadsOn ts s' x) :
    LeadsOn ts s x :=
  hx.imp (fun _ => id) fun _ => h.trans

namespace IsOf

theorem refl (h : s.IsOf ts) : s.Leads ts s := ⟨h, Nat.le_refl _, fun _ _ => rfl⟩

theorem advance (h : s.IsOf ts) : s.Leads ts s.advance where
  isOf := ⟨List.Subset.trans (List.drop_subset 1 s.rest) h.rest, h.graph⟩
  size_le := Nat.le_refl _
  tag_eq _ _ := rfl

/-- The next token is among the tokens, unless they are at an end. -/
theorem peek (h : s.IsOf ts) : s.peek ∈ ts ∨ s.peek = .finish := by
  unfold Reading.peek
  cases hrest : s.rest with
  | nil => exact .inr rfl
  | cons t rest =>
    have hmem : t ∈ s.rest := by
      rw [hrest]
      exact List.mem_cons_self
    exact .inl (h.rest hmem)

theorem token (h : s.IsOf ts) {f : YamlFault} (hf : s.peek = .fault f) : CannotRead ts f := by
  rcases h.peek with hpeek | hpeek
  · exact .token (hf ▸ hpeek)
  · rw [hf] at hpeek
    cases hpeek

theorem fault (h : s.IsOf ts) {Q : α → Prop} : Meets (CannotRead ts) Q s.fault := by
  unfold Reading.fault
  split
  · next hf => exact h.token hf
  · exact .malformed

theorem next (h : s.IsOf ts) : Meets (CannotRead ts) (fun t => t ∈ ts ∨ t = .finish) s.next := by
  unfold Reading.next
  split
  · next hf => exact h.token hf
  · exact h.peek

theorem add (h : s.IsOf ts) {n : Node} (hn : GivesTag ts ∨ n.IsUntagged ts) :
    s.Leads ts (s.add n).2 where
  isOf := by
    refine ⟨h.rest, ?_⟩
    rcases h.graph with htag | hgraph
    · exact .inl htag
    · refine hn.imp id fun hn m hm => ?_
      rcases Array.mem_push.mp hm with hm | rfl
      · exact hgraph m hm
      · exact hn
  size_le := by
    show s.graph.size ≤ (s.graph.push n).size
    rw [Array.size_push]
    exact Nat.le_succ _
  tag_eq _ hi := Graph.tag_push n hi

theorem addMissing (h : s.IsOf ts) : s.Leads ts s.addMissing.2 :=
  h.add (.inr Node.isUntagged_missing)

theorem addAnchored (h : s.IsOf ts) (anchor : Option String) {n : Node}
    (hn : GivesTag ts ∨ n.IsUntagged ts) :
    Meets (CannotRead ts)
      (fun r => s.Leads ts r.2 ∧ r.1 < r.2.graph.size ∧ r.2.graph.tag r.1 = n.tag)
      (s.addAnchored anchor n) := by
  have hadd := h.add hn
  have hlt : s.graph.size < (s.graph.push n).size := by simp
  have htag := Graph.tag_push_size s.graph n
  unfold Reading.addAnchored
  split
  · exact ⟨hadd, hlt, htag⟩
  · split
    · exact .malformed
    · exact ⟨⟨⟨hadd.isOf.rest, hadd.isOf.graph⟩, hadd.size_le, hadd.tag_eq⟩, hlt, htag⟩

theorem fill (h : s.IsOf ts) (n : NodeId) {content : Content}
    (hn : GivesTag ts ∨ Node.IsUntagged ts ⟨s.graph.tag n, content⟩) :
    s.Leads ts (s.fill n content) where
  isOf := by
    refine ⟨h.rest, ?_⟩
    rcases h.graph with htag | hgraph
    · exact .inl htag
    · refine hn.imp id fun hn m hm => ?_
      -- The node is the one that is filled, or it has been there before.
      obtain ⟨i, hi⟩ := Array.getElem?_of_mem hm
      have hi : (s.graph.fill n content)[i]? = some m := hi
      unfold Graph.fill at hi
      rw [Array.getElem?_modify] at hi
      split at hi
      · next heq =>
        subst heq
        obtain ⟨x, hx, rfl⟩ := Option.map_eq_some_iff.mp hi
        unfold Graph.tag at hn
        rw [hx] at hn
        exact hn
      · exact hgraph m (Array.mem_of_getElem? hi)
  size_le := by
    show s.graph.size ≤ (s.graph.modify n _).size
    exact Nat.le_of_eq Array.size_modify.symm
  tag_eq _ _ := Graph.tag_fill ..

end IsOf

end Reading

namespace Node

open Reading

/-! ## Entries of collections -/

section

variable {node : Reading → Except YamlFault (NodeId × Reading)}
  (hnode : ∀ s : Reading, s.IsOf ts → LeadsOn ts s (node s)) {s : Reading}

include hnode

end

/-! ## Nodes -/

variable {s : Reading}

end Node

end Treewalk.Yaml
