import Treewalk.Yaml.Graph

/-!
# Reading YAML nodes

The graph of a document is read from its tokens. Where the format lets a node be left out, it is an
empty plain scalar. An anchor gives a name to a node, and an alias is the node with its name; each
name may be given once, and has to be given before the alias.

The state of reading holds the tokens that are left, the nodes that have been read, and the names
that are known. A collection gets its number and its name before its parts are read, and so it can
be a part of itself.

Each function that reads a part of the tokens gives what it has read and the state after it. Nodes
inside each other are read with a depth that gets smaller; the loops over the entries of one
collection go on only while tokens are taken.
-/

namespace Treewalk.Yaml

/-- The state of reading nodes. -/
structure Reading where
  rest : List Token
  /-- The number of tokens in `rest`. -/
  left : Nat
  graph : Graph
  anchors : List (String × NodeId)

namespace Reading

/-- The state before the first of a list of tokens. -/
def ofTokens (ts : List Token) : Reading := ⟨ts, ts.length, #[], []⟩

/-- The next token. -/
def peek (s : Reading) : Token := s.rest.head?.getD .finish

/-- The state after the next token. -/
def advance (s : Reading) : Reading := { s with rest := s.rest.drop 1, left := s.left - 1 }

/-- The fault at a token that may not stand here. -/
def fault {α : Type} (s : Reading) : Except YamlFault α :=
  match s.peek with
  | .fault f => .error f
  | _ => .error .malformed

/-- The next token, unless the text cannot be read on. -/
def next (s : Reading) : Except YamlFault Token :=
  match s.peek with
  | .fault f => .error f
  | t => .ok t

/-- Adds a node to the graph. -/
def add (s : Reading) (n : Node) : NodeId × Reading :=
  let ⟨rest, left, graph, anchors⟩ := s
  (graph.size, ⟨rest, left, graph.push n, anchors⟩)

/-- Adds a node and gives it the name of an anchor, if there is one. -/
def addAnchored (s : Reading) (anchor : Option String) (n : Node) :
    Except YamlFault (NodeId × Reading) :=
  match anchor with
  | none => .ok (s.add n)
  | some name =>
    if (s.anchors.lookup name).isSome then .error .malformed
    else
      let (id, s) := s.add n
      .ok (id, { s with anchors := (name, id) :: s.anchors })

/-- Adds a node that was left out. -/
def addMissing (s : Reading) : NodeId × Reading := s.add .missing

/-- Gives a node its content. -/
def fill (s : Reading) (id : NodeId) (content : Content) : Reading :=
  let ⟨rest, left, graph, anchors⟩ := s
  ⟨rest, left, graph.fill id content, anchors⟩

end Reading

namespace Node

/-! ## Entries of collections -/

section

/-! The argument `node` reads a node inside the collection. -/

variable (node : Reading → Except YamlFault (NodeId × Reading))

/-- A node, or a missing one if the next token is one of those in front of which it may be left out.
-/
def nodeUnless (mayMiss : Token → Bool) (s : Reading) : Except YamlFault (NodeId × Reading) :=
  if mayMiss s.peek then .ok s.addMissing else node s

/-- The items of a block list. -/
def blockItems (s : Reading) : Except YamlFault (List NodeId × Reading) :=
  match s.peek with
  | .dash => do
    let mayMiss : Token → Bool | .dash | .blockEnd => true | _ => false
    let left := s.left
    let (item, next) ← nodeUnless node mayMiss s.advance
    if next.left < left then
      let (items, last) ← blockItems next
      return (item :: items, last)
    else next.fault
  | .blockEnd => .ok ([], s.advance)
  | _ => s.fault
termination_by s.left

/-- The items of a block list that stands at the column of the mapping around it; what ends it
belongs to the mapping. -/
def flushItems (s : Reading) : Except YamlFault (List NodeId × Reading) :=
  match s.peek with
  | .dash => do
    let mayMiss : Token → Bool | .dash | .key | .value | .blockEnd => true | _ => false
    let left := s.left
    let (item, next) ← nodeUnless node mayMiss s.advance
    if next.left < left then
      let (items, last) ← flushItems next
      return (item :: items, last)
    else next.fault
  | _ => .ok ([], s)
termination_by s.left

/-- The value after a key, which may be left out with its colon. -/
def valueOrMissing (mayMiss : Token → Bool) (s : Reading) : Except YamlFault (NodeId × Reading) :=
  match s.peek with
  | .value => nodeUnless node mayMiss s.advance
  | _ => .ok s.addMissing

/-- The entries of a block mapping. -/
def blockEntries (s : Reading) : Except YamlFault (List (NodeId × NodeId) × Reading) :=
  match s.peek with
  | .key => do
    let mayMiss : Token → Bool | .key | .value | .blockEnd => true | _ => false
    let left := s.left
    let (key, next) ← nodeUnless node mayMiss s.advance
    let (value, next) ← valueOrMissing node mayMiss next
    if next.left < left then
      let (entries, last) ← blockEntries next
      return ((key, value) :: entries, last)
    else next.fault
  | .blockEnd => .ok ([], s.advance)
  | _ => s.fault
termination_by s.left

/-- A key and its value inside a flow collection that the given token closes. -/
def flowPair (closes : Token → Bool) (s : Reading) :
    Except YamlFault ((NodeId × NodeId) × Reading) := do
  let mayMissValue (t : Token) : Bool := closes t || (match t with | .comma => true | _ => false)
  let mayMissKey (t : Token) : Bool :=
    mayMissValue t || (match t with | .value => true | _ => false)
  let (key, next) ← nodeUnless node mayMissKey s.advance
  let (value, next) ← valueOrMissing node mayMissValue next
  return ((key, value), next)

/-- The place after the comma between two entries of a flow collection. -/
def afterComma (isFirst : Bool) (s : Reading) : Except YamlFault Reading :=
  if isFirst then .ok s
  else match s.peek with | .comma => .ok s.advance | _ => s.fault

/-- The items of a flow list. A pair without braces is a mapping with one entry. -/
def flowItems (isFirst : Bool) (s : Reading) : Except YamlFault (List NodeId × Reading) :=
  let closes : Token → Bool | .listClose => true | _ => false
  if closes s.peek then .ok ([], s.advance)
  else do
    let left := s.left
    let start ← afterComma isFirst s
    if closes start.peek then return ([], start.advance)
    let (item, next) ← (match start.peek with
      | .key => do
        let (entry, next) ← flowPair node closes start
        return next.add ⟨.map, .map [entry]⟩
      | _ => node start : Except YamlFault (NodeId × Reading))
    if next.left < left then
      let (items, last) ← flowItems false next
      return (item :: items, last)
    else next.fault
termination_by s.left

/-- The entries of a flow mapping. A node that is no key is a key without a value. -/
def flowEntries (isFirst : Bool) (s : Reading) :
    Except YamlFault (List (NodeId × NodeId) × Reading) :=
  let closes : Token → Bool | .mapClose => true | _ => false
  if closes s.peek then .ok ([], s.advance)
  else do
    let left := s.left
    let start ← afterComma isFirst s
    if closes start.peek then return ([], start.advance)
    let (entry, next) ← (match start.peek with
      | .key => flowPair node closes start
      | _ => do
        let (key, next) ← node start
        let (value, next) := next.addMissing
        return ((key, value), next) : Except YamlFault ((NodeId × NodeId) × Reading))
    if next.left < left then
      let (entries, last) ← flowEntries false next
      return (entry :: entries, last)
    else next.fault
termination_by s.left

end

/-! ## Nodes -/

/-- What may stand in front of a node: an anchor and a tag, in either order. -/
structure Properties where
  anchor : Option String
  tag : Option (Option String × String)

/-- Reads the properties of a node. -/
def readProperties (s : Reading) : Except YamlFault (Properties × Reading) := do
  match ← s.next with
  | .anchor name =>
    match ← s.advance.next with
    | .tag handle suffix => return (⟨some name, some (handle, suffix)⟩, s.advance.advance)
    | _ => return (⟨some name, none⟩, s.advance)
  | .tag handle suffix =>
    match ← s.advance.next with
    | .anchor name => return (⟨some name, some (handle, suffix)⟩, s.advance.advance)
    | _ => return (⟨none, some (handle, suffix)⟩, s.advance)
  | _ => return (⟨none, none⟩, s)

/-- The full name of a tag, by the handles that are known. -/
def fullTag (handles : List (String × String)) : Option (Option String × String) →
    Except YamlFault (Option String)
  | none => .ok none
  | some (none, suffix) => .ok (some suffix)
  | some (some handle, suffix) =>
    match handles.lookup handle with
    | none => .error .malformed
    | some stem => .ok (some (stem ++ suffix))

/-- The tag of a collection. -/
def collectionTag (standard : Tag) : Option String → Tag
  | none => standard
  | some name => if name = "!" then standard else .ofFullName name

/-- The tag of a scalar. -/
def scalarTag (plain : Bool) (text : Text) : Option String → Tag
  | none => if plain then .resolve text else .str
  | some name => if name = "!" then .resolve text else .ofFullName name

/-- Where a node stands. -/
inductive Place where
  /-- Inside a flow collection. -/
  | flow
  /-- Inside a block list, or at the top. -/
  | block
  /-- Inside a block mapping, where a list may stand at the column of the mapping. -/
  | flush
  deriving DecidableEq

/-- Reads a node, with nodes at most `depth` deep inside each other. -/
def read (handles : List (String × String)) :
    Nat → Place → Reading → Except YamlFault (NodeId × Reading)
  | 0, _, _ => .error .tooDeep
  | depth + 1, place, s => do
    match ← s.next with
    | .alias name =>
      match s.anchors.lookup name with
      | none => throw .malformed
      | some id => return (id, s.advance)
    | _ =>
      let (properties, s) ← readProperties s
      let anchor := properties.anchor
      let full ← fullTag handles properties.tag
      let list (items : Reading → Except YamlFault (List NodeId × Reading)) (s : Reading) :
          Except YamlFault (NodeId × Reading) := do
        let (id, s) ← s.addAnchored anchor ⟨collectionTag .seq full, .list []⟩
        let (items, s) ← items s
        return (id, s.fill id (.list items))
      let map (entries : Reading → Except YamlFault (List (NodeId × NodeId) × Reading))
          (s : Reading) : Except YamlFault (NodeId × Reading) := do
        let (id, s) ← s.addAnchored anchor ⟨collectionTag .map full, .map []⟩
        let (entries, s) ← entries s
        return (id, s.fill id (.map entries))
      match ← s.next with
      | .scalar text plain =>
        s.advance.addAnchored anchor ⟨scalarTag plain text full, .scalar text⟩
      | .listOpen => list (flowItems (read handles depth .flow) true) s.advance
      | .mapOpen => map (flowEntries (read handles depth .flow) true) s.advance
      | t =>
        let absent : Except YamlFault (NodeId × Reading) :=
          if anchor.isSome || full.isSome then
            s.addAnchored anchor ⟨scalarTag true [] full, .scalar []⟩
          else s.fault
        match place, t with
        | .flush, .dash => list (flushItems (read handles depth .block)) s
        | .flow, _ => absent
        | _, .blockList => list (blockItems (read handles depth .block)) s.advance
        | _, .blockMap => map (blockEntries (read handles depth .flush)) s.advance
        | _, _ => absent

/-! ## Documents -/

/-- The handles of tags that are known without a directive. -/
def standardHandles : List (String × String) := [("!", "!"), ("!!", Tag.standardStem)]

/-- Reads the directives before a document: the handles that they declare, whether a version was
given, and the tokens after them. -/
def readDirectives : List Token → List (String × String) → Bool →
    Except YamlFault (List (String × String) × List Token)
  | .directive (.version major _) :: rest, handles, versionGiven =>
    if versionGiven || major ≠ 1 then .error .malformed else readDirectives rest handles true
  | .directive (.tag handle stem) :: rest, handles, versionGiven =>
    if (handles.lookup handle).isSome then .error .malformed
    else readDirectives rest ((handle, stem) :: handles) versionGiven
  | .directive .other :: rest, handles, versionGiven => readDirectives rest handles versionGiven
  | ts, handles, _ => .ok (handles ++ standardHandles, ts)

/-- The number of nodes that may stand inside each other. -/
def depthLimit : Nat := 480

/-- Drops marks for the end of a document. -/
def dropEnds : List Token → List Token
  | .documentEnd :: rest => dropEnds rest
  | ts => ts

/-- Reads the start of a document that is marked, if there is one: the handles that are known, and
the tokens after the mark. -/
def readStart (ts : List Token) : Except YamlFault (Option (List (String × String) × List Token)) :=
  match dropEnds ts with
  | [] | .finish :: _ => .ok none
  | ts => do
    let (handles, ts) ← readDirectives ts [] false
    match ts with
    | .documentStart :: rest => return some (handles, rest)
    | ts => (Reading.ofTokens ts).fault

/-- Reads the only document of a text, if there is one: its graph, and the node at its top. -/
def ofTokens? (ts : List Token) : Except YamlFault (Option (Graph × NodeId)) := do
  let start := Reading.ofTokens ts
  let result ← (match start.peek with
    | .directive _ | .documentStart | .finish => do
      match ← readStart ts with
      | none => return none
      | some (handles, rest) =>
        let s := Reading.ofTokens rest
        match s.peek with
        | .directive _ | .documentStart | .documentEnd | .finish => return some s.addMissing
        | _ => return some (← read handles depthLimit .block s)
    | _ => do return some (← read standardHandles depthLimit .block start) :
    Except YamlFault (Option (NodeId × Reading)))
  match result with
  | none => return none
  | some (id, s) =>
    match ← readStart s.rest with
    | none => return some (s.graph, id)
    | some _ => throw .malformed

end Node

end Treewalk.Yaml
