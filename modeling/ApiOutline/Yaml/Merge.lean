/-
ApiOutline/Yaml/Merge.lean

Merge keys: mappings that take over the pairs of others.

Design.  A pair with a merge key gives way to the pairs of the mapping, or of
the mappings in a list, that is its value.  They go in front of the mapping's
own pairs, so that these win; of several mappings in a list the earlier ones
win.  The mappings that are taken over give up their own merge keys first.  No
merge key is ever copied, so their number bounds the depth, even where a mapping
takes itself over.
-/
import ApiOutline.Yaml.Node

namespace ApiOutline.Yaml.Graph

/-- The node with a number. -/
def node (g : Graph) (id : NodeId) : Node := g.getD id Node.empty

/-- The pairs of a mapping. -/
def pairs (g : Graph) (id : NodeId) : List (NodeId × NodeId) :=
  match (g.node id).content with
  | .mapping ps => ps
  | _ => []

/-- The node is a mapping. -/
def isMapping (g : Graph) (id : NodeId) : Bool :=
  match (g.node id).content with
  | .mapping _ => true
  | _ => false

/-- The node is a scalar. -/
def isScalar (g : Graph) (id : NodeId) : Bool :=
  match (g.node id).content with
  | .scalar _ => true
  | _ => false

/-- Gives a mapping other pairs. -/
def setPairs (g : Graph) (id : NodeId) (ps : List (NodeId × NodeId)) : Graph :=
  g.modify id fun n => { n with content := .mapping ps }

/-- The node is the key of a merge. -/
def isMergeKey (g : Graph) (id : NodeId) : Bool := (g.node id).tag = .merge

/-- The node is the key of a scalar value. -/
def isValueKey (g : Graph) (id : NodeId) : Bool := (g.node id).tag = .value

/-- The key of a scalar value counts as text where it is one key among others. -/
def asKey (g : Graph) (id : NodeId) : Graph :=
  if g.isValueKey id then g.modify id fun n => { n with tag := .text } else g

/-- The value of the first merge key among pairs, and the other pairs. -/
def firstMerge? (g : Graph) :
    List (NodeId × NodeId) → Option (NodeId × List (NodeId × NodeId))
  | [] => none
  | p :: ps =>
    if g.isMergeKey p.1 then some (p.2, ps)
    else (g.firstMerge? ps).map fun r => (r.1, p :: r.2)

/-- How many merge keys there are. -/
def countMerges (g : Graph) : Nat :=
  g.foldl (fun n node => match node.content with
    | .mapping ps => n + ps.countP fun p => g.isMergeKey p.1
    | _ => n) 0

/-- The mapping without merge keys left, with the pairs in front that it has taken over. -/
def settle (g : Graph) (id : NodeId) (taken : List (NodeId × NodeId)) : Graph :=
  let ps := taken ++ g.pairs id
  ps.foldl (fun g p => g.asKey p.1) (g.setPairs id ps)

/-- The pairs of each mapping of a list, `absorb` making it give up its merge keys. -/
def gather (absorb : NodeId → List (NodeId × NodeId) → Graph → Except Fault Graph) :
    List NodeId → Graph → Except Fault (List (List (NodeId × NodeId)) × Graph)
  | [], g => .ok ([], g)
  | id :: ids, g =>
    if g.isMapping id then do
      let g ← absorb id [] g
      let (lists, after) ← gather absorb ids g
      return (g.pairs id :: lists, after)
    else .error .malformed

/-- Makes a mapping give up its merge keys, `taken` being the pairs it has taken over so far. -/
def absorb : Nat → NodeId → List (NodeId × NodeId) → Graph → Except Fault Graph
  | 0, id, taken, g => .ok (g.settle id taken)
  | n + 1, id, taken, g =>
    match g.firstMerge? (g.pairs id) with
    | none => .ok (g.settle id taken)
    | some (source, others) => do
      let g := g.setPairs id others
      match (g.node source).content with
      | .mapping _ =>
        let g ← absorb n source [] g
        absorb n id (taken ++ g.pairs source) g
      | .sequence ids =>
        let (lists, g) ← gather (absorb n) ids g
        absorb n id (taken ++ lists.reverse.flatten) g
      | .scalar _ => throw .malformed

/-- The graph in which a mapping has no keys but those of pairs. -/
def merged (g : Graph) (id : NodeId) : Except Fault Graph :=
  if (g.pairs id).any fun p => g.isMergeKey p.1 || g.isValueKey p.1 then
    g.absorb g.countMerges id []
  else .ok g

end ApiOutline.Yaml.Graph
