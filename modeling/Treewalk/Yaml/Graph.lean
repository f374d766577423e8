import Treewalk.Yaml.Tag

/-!
# The graph of a YAML document

The nodes of a document. A node is a scalar, a list or a mapping, and has a tag. Lists and mappings
refer to their parts by number, so a part may belong to several collections, and a collection may be
a part of itself.
-/

namespace Treewalk.Yaml

/-- The number of a node. -/
abbrev NodeId := Nat

/-- What a node holds. -/
inductive Content where
  | scalar (text : Text)
  | list (items : List NodeId)
  | map (entries : List (NodeId × NodeId))

/-- A node. -/
structure Node where
  tag : Tag
  content : Content

namespace Node

/-- A node that was left out. -/
def missing : Node := ⟨.null, .scalar []⟩

end Node

/-- The nodes of a document. -/
abbrev Graph := Array Node

namespace Graph

/-- The tag of a node. -/
def tag (g : Graph) (n : NodeId) : Tag := (g[n]?.map Node.tag).getD .unknown

/-- What a node holds. -/
def content (g : Graph) (n : NodeId) : Content := (g[n]?.map Node.content).getD (.scalar [])

/-- The entries of a mapping. -/
def entries (g : Graph) (n : NodeId) : List (NodeId × NodeId) :=
  match g.content n with
  | .map entries => entries
  | _ => []

/-- The graph after a node has got another content. -/
def fill (g : Graph) (n : NodeId) (content : Content) : Graph :=
  g.modify n fun node => { node with content := content }

/-- The graph after a node has got another tag. -/
def relabel (g : Graph) (n : NodeId) (tag : Tag) : Graph :=
  g.modify n fun node => { node with tag := tag }

/-- The number of entries of all mappings. -/
def countEntries (g : Graph) : Nat :=
  g.foldl (fun count node =>
    match node.content with | .map entries => count + entries.length | _ => count) 0

end Graph

end Treewalk.Yaml
