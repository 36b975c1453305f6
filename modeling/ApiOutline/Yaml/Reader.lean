/-
ApiOutline/Yaml/Reader.lean

YAML texts, read as values.

Design.  The first fault that is met decides what is wrong with a text, so the
order of reading is part of the rules.  The value of a scalar is read where the
scalar is met; a collection is only begun there, and is filled when everything
that was begun before it has been filled.  So values are read level by level
(`Loading.queue`).  A collection knows its parts by their numbers and may
contain itself; at the end the values are unfolded to a fixed depth.

Of a repeated key the first place and the last value count, and a key cannot be
a collection.
-/
import ApiOutline.Yaml.Lexer
import ApiOutline.Yaml.Merge
import ApiOutline.Yaml.ScalarValue

namespace ApiOutline.Yaml

/-- The value of a node, its parts being known by their numbers. -/
inductive Value where
  | leaf (value : Data)
  /-- a collection that has no parts yet -/
  | begun
  | list (items : List NodeId)
  | map (entries : List (Data × NodeId))
  /-- a list of pairs -/
  | pairs (items : List (NodeId × NodeId))
  /-- a list of keys -/
  | keys (items : List Data)
deriving Repr, Inhabited

/-- The nodes of a text, the values that were read so far, and the collections that were begun,
in order. -/
structure Loading where
  graph : Graph
  values : Array (Option Value)
  queue : Array NodeId := #[]
deriving Repr

namespace Loading

/-- A part of reading. -/
abbrev Load := StateT Loading (Except Fault)

/-! ### Scalars -/

/-- The text of a scalar; a mapping can stand for the scalar under its value key. -/
def textOf (g : Graph) : Nat → NodeId → Except Fault (List Char)
  | 0, _ => .error (.badValue .endless)
  | n + 1, id =>
    match (g.node id).content with
    | .scalar text => .ok text
    | .sequence _ => .error .malformed
    | .mapping ps =>
      match ps.find? fun p => g.isValueKey p.1 with
      | some p => textOf g n p.2
      | none => .error .malformed

/-- The value of a node with the tag of a scalar. -/
def leafOf (g : Graph) (id : NodeId) : Except Fault Data := do
  let tag := (g.node id).tag
  if tag = .unknown || tag = .merge || tag = .value then throw .malformed
  else
    let text ← textOf g (g.size + 1) id
    if tag = .timestamp && !g.isScalar id then throw (.badValue .timestampInMapping)
    else ScalarValue.read tag text

/-! ### Collections -/

/-- Keeps the value of a node. -/
def keep (id : NodeId) (v : Value) : Load Unit :=
  modify fun s => { s with values := s.values.setIfInBounds id (some v) }

/-- The tag is that of a collection. -/
def isCollection : Tag → Bool
  | .sequence => true
  | .mapping => true
  | .set => true
  | .orderedMap => true
  | .pairs => true
  | _ => false

/-- Reads the value of a scalar, or begins that of a collection, unless this was done before. -/
def begin (id : NodeId) : Load Unit := do
  let s ← get
  match s.values[id]?.join with
  | some _ => return
  | none =>
    if isCollection (s.graph.node id).tag then
      keep id .begun
      modify fun s => { s with queue := s.queue.push id }
    else keep id (.leaf (← leafOf s.graph id))

/-- The value of a key. -/
def keyOf (id : NodeId) : Load Data := do
  begin id
  match (← get).values[id]?.join with
  | some (.leaf key) => return key
  | _ => throw .malformed

/-- Puts an entry among others: the place of a key is its first, its value its last. -/
def putEntry {α : Type} : List (Data × α) → Data × α → List (Data × α)
  | [], e => [e]
  | (k, v) :: es, e => if k.sameKey e.1 then (k, e.2) :: es else (k, v) :: putEntry es e

/-- The entries of a mapping, one after the other, `es` being those before. -/
def entriesOf (es : List (Data × NodeId)) :
    List (NodeId × NodeId) → Load (List (Data × NodeId))
  | [] => return es
  | p :: ps => do
    let key ← keyOf p.1
    begin p.2
    entriesOf (putEntry es (key, p.2)) ps

/-- The entries of a mapping, the ones it takes over first. -/
def mapping (id : NodeId) : Load (List (Data × NodeId)) := do
  let g ← (← get).graph.merged id
  modify fun s => { s with graph := g }
  if g.isMapping id then entriesOf [] (g.pairs id) else throw .malformed

/-- The items of a sequence. -/
def sequence (id : NodeId) : Load (List NodeId) := do
  match ((← get).graph.node id).content with
  | .sequence ids => return ids
  | _ => throw .malformed

/-- The items of a list of single pairs. -/
def singlePairs : List NodeId → Load (List (NodeId × NodeId))
  | [] => return []
  | id :: ids => do
    match ((← get).graph.node id).content with
    | .mapping [p] =>
      begin p.1
      begin p.2
      return p :: (← singlePairs ids)
    | _ => throw .malformed

/-- Fills a collection that was begun. -/
def fill (id : NodeId) : Load Unit := do
  match ((← get).graph.node id).tag with
  | .mapping => keep id (.map (← mapping id))
  | .set => keep id (.keys ((← mapping id).map Prod.fst))
  | .sequence =>
    let ids ← sequence id
    ids.forM begin
    keep id (.list ids)
  | _ => keep id (.pairs (← singlePairs (← sequence id)))

/-- Fills all collections from a place in the queue on. -/
def fillFrom : Nat → Nat → Load Unit
  | 0, _ => return
  | n + 1, place => do
    match (← get).queue[place]? with
    | none => return
    | some id =>
      fill id
      fillFrom n (place + 1)

/-- Reads the value of a root and of all that it contains. -/
def all (root : NodeId) : Load Unit := do
  begin root
  fillFrom (← get).graph.size 0

/-! ### Unfolding -/

/-- A value, its parts being given by number. -/
def compose (part : NodeId → Data) : Value → Data
  | .leaf v => v
  | .begun => .null
  | .list ids => .list (ids.map part)
  | .map es => .map (es.map fun e => (e.1, part e.2))
  | .pairs ps => .list (ps.map fun p => .list [part p.1, part p.2])
  | .keys ks => .list ks

/-- How deep values are unfolded; only a value that contains itself goes on for ever. -/
def depth : Nat := 100

/-- The values to a depth, with null in place of what is deeper. -/
def unfold (s : Loading) : Nat → Array Data
  | 0 => s.values.map fun _ => .null
  | n + 1 =>
    let parts := s.unfold n
    s.values.map fun v => (v.map (compose fun id => parts.getD id .null)).getD .null

/-- The value of a node. -/
def valueOf (s : Loading) (id : NodeId) : Data := (s.unfold depth).getD id .null

end Loading

/-- The value that a text holds; a text without contents holds null. -/
def load (text : List Char) : Except Fault Data := do
  match ← Node.ofTokens (Token.ofText text) with
  | none => return .null
  | some (graph, root) =>
    let s ← (Loading.all root).run { graph, values := Array.replicate graph.size none }
    return s.2.valueOf root

end ApiOutline.Yaml
