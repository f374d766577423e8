import Treewalk.Yaml.Graph

/-!
# Merge keys

A key with the merge tag stands for entries of other mappings: its value is a mapping, or a list of
mappings. Merging takes such keys out of a mapping and puts the entries of the others in front of
its own; of several mappings in a list the first one counts, and so its entries come last. The other
mappings are merged before. A key with the value tag becomes a text on the way.

A mapping may be merged into itself, because its merge key is taken out first. Each step takes out
one merge key and none is ever put in, and so the number of entries bounds the steps.
-/

namespace Treewalk.Yaml.Graph

/-- The graph with a text in place of each key that has the value tag. -/
def relabelValueKeys (g : Graph) (entries : List (NodeId × NodeId)) : Graph :=
  entries.foldl (fun g (k, _) => if g.tag k = .value then g.relabel k .str else g) g

/-- Merges the entries of a mapping from an index on; `merged` are the entries of other mappings
that have been found so far. -/
def mergeFrom : Nat → NodeId → Nat → List (NodeId × NodeId) → Graph → Except YamlFault Graph
  | 0, _, _, _, _ => .error .tooDeep
  | bound + 1, n, index, merged, g =>
    let entries := g.entries n
    let (before, after) := (entries.drop index).span fun (k, _) => g.tag k ≠ .merge
    let g := g.relabelValueKeys before
    match after with
    | [] => .ok (if merged.isEmpty then g else g.fill n (.map (merged ++ entries)))
    | (_, value) :: rest => do
      let index := index + before.length
      let g := g.fill n (.map (entries.take index ++ rest))
      match g.content value with
      | .scalar _ => throw .malformed
      | .map _ =>
        let g ← mergeFrom bound value 0 [] g
        mergeFrom bound n index (merged ++ g.entries value) g
      | .list items =>
        let (found, g) ← items.foldlM (fun (found, g) item => do
          match g.content item with
          | .map _ =>
            let g ← mergeFrom bound item 0 [] g
            return (g.entries item ++ found, g)
          | _ => throw .malformed) (([] : List (NodeId × NodeId)), g)
        mergeFrom bound n index (merged ++ found) g

/-- Merges the entries of a mapping; `bound` is the number of entries of all mappings. -/
def merge (bound : Nat) (n : NodeId) (g : Graph) : Except YamlFault Graph :=
  mergeFrom (bound + 1) n 0 [] g

end Treewalk.Yaml.Graph
