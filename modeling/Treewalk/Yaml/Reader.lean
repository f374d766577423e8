import Treewalk.Document.Data
import Treewalk.Document.Slots
import Treewalk.Yaml.Merge
import Treewalk.Yaml.Node
import Treewalk.Yaml.ScalarValue
import Treewalk.Yaml.Tokens

/-!
# From YAML nodes to data

Each node becomes a part of the data once, and all aliases share it. A scalar becomes a document at
once. A collection becomes an empty cell, and is filled later: the cells are filled in the order in
which they were made, and so a collection may hold itself. Of several faults the one that comes
first in this order counts.

The keys of mappings and the members of sets have to be scalars. A mapping that is used as a scalar
stands for the value at its value key.
-/

namespace Treewalk.Yaml

/-- The state of making data from nodes. -/
structure Builder where
  graph : Graph
  /-- What nodes have become so far. -/
  made : Array (Option Part)
  cells : Array Cell
  /-- The collections that have to be filled, each with its cell, the last one first. -/
  pending : List (NodeId × Nat)

namespace Builder

/-- The state before anything is made. -/
def start (g : Graph) : Builder := ⟨g, .replicate g.size none, #[], []⟩

/-- Notes what a node has become. -/
def note (b : Builder) (n : NodeId) (p : Part) : Builder :=
  { b with made := b.made.setIfInBounds n (some p) }

/-- Adds a cell. -/
def addCell (b : Builder) (cell : Cell) : Part × Builder :=
  (.place b.cells.size, { b with cells := b.cells.push cell })

/-- Makes an empty cell of a collection, which has to be filled. -/
def openCell (b : Builder) (n : NodeId) (empty : Cell) : Part × Builder :=
  let ⟨graph, made, cells, pending⟩ := b
  let place := cells.size
  (.place place,
    ⟨graph, made.setIfInBounds n (some (.place place)), cells.push empty, (n, place) :: pending⟩)

/-- The text of a node that is used as a scalar; `bound` bounds the mappings inside each other. -/
def scalarText (g : Graph) : Nat → NodeId → Except YamlFault Text
  | 0, _ => .error .tooDeep
  | bound + 1, n =>
    match g.content n with
    | .scalar text => .ok text
    | .list _ => .error .malformed
    | .map entries =>
      match entries.find? fun (k, _) => g.tag k = .value with
      | some (_, value) => scalarText g bound value
      | none => .error .malformed

/-- The data of a node with the tag of a scalar. -/
def scalar (g : Graph) (n : NodeId) (tag : Tag) : Except YamlFault Document := do
  let text ← scalarText g (g.size + 1) n
  match tag, g.content n with
  | .timestamp, .map _ => throw .timestampOfMapping
  | tag, _ => scalarValue n tag text

/-- Makes the part of the data that a node stands for, unless it is made already. -/
def make (b : Builder) (n : NodeId) : Except YamlFault (Part × Builder) :=
  match b.made[n]? with
  | some (some part) => .ok (part, b)
  | _ =>
    match b.graph.tag n with
    | .seq | .orderedMap | .pairs => .ok (b.openCell n (.list []))
    | .map => .ok (b.openCell n (.map []))
    | .set => .ok (b.openCell n (.set []))
    | .merge | .value | .unknown => .error .malformed
    | tag => do
      let part := Part.whole (← scalar b.graph n tag)
      return (part, b.note n part)

/-- Makes the parts for several nodes. -/
def makeAll (b : Builder) : List NodeId → Except YamlFault (List Part × Builder)
  | [] => .ok ([], b)
  | n :: ns => do
    let (part, b) ← b.make n
    let (parts, b) ← b.makeAll ns
    return (part :: parts, b)

/-- Makes the pairs for mappings with a single entry each. -/
def makePairs (b : Builder) : List NodeId → Except YamlFault (List Part × Builder)
  | [] => .ok ([], b)
  | n :: ns =>
    match b.graph.content n with
    | .map [(key, value)] => do
      let (parts, b) ← b.makeAll [key, value]
      let (pair, b) := b.addCell (.tuple parts)
      let (pairs, b) ← b.makePairs ns
      return (pair :: pairs, b)
    | _ => .error .malformed

/-- Makes the entries of a mapping, one after another; `done` are those made so far. -/
def makeEntries (b : Builder) (done : List (Document × Part)) :
    List (NodeId × NodeId) → Except YamlFault (List (Document × Part) × Builder)
  | [] => .ok (done, b)
  | (key, value) :: rest => do
    match ← b.make key with
    | (.place _, _) => throw .malformed
    | (.whole key, b) =>
      let (value, b) ← b.make value
      b.makeEntries (Document.setEntry key value done) rest

/-- Makes the entries of a node that has to be a mapping, after merging. -/
def makeMapping (bound : Nat) (b : Builder) (n : NodeId) :
    Except YamlFault (List (Document × Part) × Builder) :=
  match b.graph.content n with
  | .map _ => do
    let ⟨g, made, cells, pending⟩ := b
    let g ← g.merge bound n
    let entries := g.entries n
    makeEntries ⟨g, made, cells, pending⟩ [] entries
  | _ => .error .malformed

/-- Fills the cell of a collection. -/
def fill (bound : Nat) (b : Builder) (n : NodeId) (place : Nat) : Except YamlFault Builder := do
  let (cell, b) ← (match b.graph.tag n, b.graph.content n with
    | .seq, .list items => do
      let (parts, b) ← b.makeAll items
      return (.list parts, b)
    | .orderedMap, .list items | .pairs, .list items => do
      let (pairs, b) ← b.makePairs items
      return (.list pairs, b)
    | .map, _ => do
      let (entries, b) ← b.makeMapping bound n
      return (.map entries, b)
    | .set, _ => do
      let (entries, b) ← b.makeMapping bound n
      return (.set (Document.inSlotOrder (entries.map (·.1))), b)
    | _, _ => throw .malformed : Except YamlFault (Cell × Builder))
  return { b with cells := b.cells.setIfInBounds place cell }

/-- Fills all cells that are open, and then those that were opened meanwhile; the first argument
bounds how often. -/
def fillAll (bound : Nat) : Nat → Builder → Except YamlFault Builder
  | 0, b => .ok b
  | rounds + 1, b =>
    if b.pending.isEmpty then .ok b
    else do
      let todo := b.pending.reverse
      let b ← todo.foldlM (fun b (n, place) => b.fill bound n place) { b with pending := [] }
      fillAll bound rounds b

end Builder

/-- The data of a node. -/
def Graph.toData (g : Graph) (top : NodeId) : Except YamlFault Data := do
  let (root, b) ← (Builder.start g).make top
  let b ← b.fillAll g.countEntries (g.size + 1)
  return .ofCells b.cells root

/-- Reads a text as a YAML document. A text without a document is null, and surrogates may not stand
in one. -/
def read (t : Text) : Except YamlFault Data := do
  match t.toChars? with
  | none => throw .malformed
  | some cs =>
    match ← Node.ofTokens? (tokensOf cs) with
    | none => return Document.null
    | some (g, top) => g.toData top

end Treewalk.Yaml
