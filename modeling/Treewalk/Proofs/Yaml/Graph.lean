import Treewalk.Yaml.Graph

/-!
# Nodes of a graph

The tag and the content of a node, as the graph grows and its nodes are filled.
-/

namespace Treewalk.Yaml.Graph

variable {g : Graph} {i : NodeId}

theorem tag_eq {x : Node} (hx : g[i]? = some x) : g.tag i = x.tag := by
  unfold tag
  rw [hx]
  rfl

theorem content_eq {x : Node} (hx : g[i]? = some x) : g.content i = x.content := by
  unfold content
  rw [hx]
  rfl

theorem tag_push (n : Node) (hi : i < g.size) : Graph.tag (g.push n) i = g.tag i := by
  unfold tag
  rw [Array.getElem?_push, if_neg (Nat.ne_of_lt hi)]

theorem tag_push_size (g : Graph) (n : Node) : Graph.tag (g.push n) g.size = n.tag := by
  unfold tag
  rw [Array.getElem?_push, if_pos rfl]
  rfl

theorem tag_fill (g : Graph) (i j : NodeId) (content : Content) :
    (g.fill i content).tag j = g.tag j := by
  unfold tag fill
  rw [Array.getElem?_modify]
  split
  · rw [Option.map_map]
    rfl
  · rfl

end Treewalk.Yaml.Graph
