/-
ApiOutline/Yaml/Node.lean

The nodes of a YAML text, built from its tokens.

Design.  A text holds one document at most.  Its nodes are the entries of a
graph and know each other by number, since an alias can name any node that has
begun, also one in which it stands itself.  Every call that builds a node takes
a token or is one of a fixed number between two tokens, so a multiple of the
number of tokens bounds the depth.
-/
import ApiOutline.Table
import ApiOutline.Yaml.Plain
import ApiOutline.Yaml.Token

namespace ApiOutline.Yaml

/-- The number of a node. -/
abbrev NodeId := Nat

/-- What a node consists of. -/
inductive Content where
  | scalar (text : List Char)
  | sequence (items : List NodeId)
  | mapping (pairs : List (NodeId × NodeId))
deriving DecidableEq, Repr, Inhabited

/-- A node. -/
structure Node where
  tag : Tag
  content : Content
deriving DecidableEq, Repr, Inhabited

/-- The nodes of a text, by their numbers. -/
abbrev Graph := Array Node

namespace Node

/-! ### Tags -/

/-- The tag of a scalar: without a tag of its own it has that of its form if it is plain, and is
text otherwise.  A lone exclamation mark says that the form counts. -/
def scalarTag (tag : Option (List Char)) (plain : Bool) (text : List Char) : Tag :=
  match tag with
  | none => if plain then Plain.tagOf text else .text
  | some name => if name = ['!'] then Plain.tagOf text else .named name

/-- The tag of a collection. -/
def collectionTag (standard : Tag) : Option (List Char) → Tag
  | none => standard
  | some name => if name = ['!'] then standard else .named name

/-- A scalar with the tag that is written at it. -/
def ofScalar (tag : Option (List Char)) (plain : Bool) (text : List Char) : Node :=
  ⟨scalarTag tag plain text, .scalar text⟩

/-- A node that is left out. -/
def empty : Node := ofScalar none true []

/-! ### Tokens -/

/-- What is known while nodes are built: the tokens that are left, what the tag handles stand
for, the nodes that have begun, and which of them anchors name. -/
structure Progress where
  tokens : List Token
  handles : Table (List Char) (List Char)
  nodes : Graph := #[]
  anchors : Table (List Char) NodeId := []

/-- A part of a text, read from its tokens. -/
abbrev Build := StateT Progress (Except Fault)

/-- The first token. -/
def front : List Token → Except Fault Token
  | .broken f :: _ => .error f
  | t :: _ => .ok t
  | [] => .error .malformed

/-- The next token. -/
def peek : Build Token := do front (← get).tokens

/-- Goes past the next token. -/
def advance : Build Unit := modify fun p => { p with tokens := p.tokens.drop 1 }

/-- Goes past the next token if it is the given one, and says whether it was. -/
def takes (t : Token) : Build Bool := do
  if (← peek) = t then
    advance
    return true
  else return false

/-- Goes past the next token, which must be the given one. -/
def expect (t : Token) : Build Unit := do
  unless ← takes t do throw .malformed

/-! ### Anchors and tags -/

/-- The next token, if it is an anchor. -/
def anchor? : Build (Option (List Char)) := do
  match ← peek with
  | .anchor name =>
    advance
    return some name
  | _ => return none

/-- The next token, if it is a tag. -/
def tag? : Build (Option TagName) := do
  match ← peek with
  | .tag name =>
    advance
    return some name
  | _ => return none

/-- The tag with its handle replaced. -/
def resolved (name : TagName) : Build (List Char) := do
  match name.handle with
  | none => return name.suffix
  | some handle =>
    match Table.get? (← get).handles handle with
    | some start => return start ++ name.suffix
    | none => throw .malformed

/-- An anchor and a tag, in either order. -/
def properties : Build (Option (List Char) × Option (List Char)) := do
  match ← anchor? with
  | some anchor => return (some anchor, ← (← tag?).mapM resolved)
  | none =>
    let tag ← tag?
    let anchor ← anchor?
    return (anchor, ← tag.mapM resolved)

/-- Adds a node; if an anchor names it, no other node has the name. -/
def add (anchor : Option (List Char)) (node : Node) : Build NodeId := do
  let p ← get
  let id := p.nodes.size
  match anchor with
  | none => set { p with nodes := p.nodes.push node }
  | some name =>
    if (Table.get? p.anchors name).isSome then throw .malformed
    else set { p with nodes := p.nodes.push node, anchors := p.anchors.set name id }
  return id

/-- Gives a node its content. -/
def fill (id : NodeId) (tag : Tag) (content : Content) : Build NodeId := do
  modify fun p => { p with nodes := p.nodes.setIfInBounds id ⟨tag, content⟩ }
  return id

/-- The node that an alias stands for. -/
def aliased (anchor : List Char) : Build NodeId := do
  match Table.get? (← get).anchors anchor with
  | some id => return id
  | none => throw .malformed

/-! ### Nodes -/

mutual

/-- A node; `block` says that it may be a block collection, and `flush` that it may be a
sequence that is not indented. -/
def read (block flush : Bool) : Nat → Build NodeId
  | 0 => throw .malformed
  | n + 1 => do
    if let .alias name := ← peek then
      advance
      aliased name
    else
      let (anchor, tag) ← properties
      let listTag := collectionTag .sequence tag
      let mapTag := collectionTag .mapping tag
      match ← peek with
      | .scalar text plain =>
        advance
        add anchor (ofScalar tag plain text)
      | .openSequence =>
        let id ← add anchor ⟨listTag, .sequence []⟩
        advance
        fill id listTag (.sequence (← flowItems true n))
      | .openMapping =>
        let id ← add anchor ⟨mapTag, .mapping []⟩
        advance
        fill id mapTag (.mapping (← flowPairs true n))
      | .entry =>
        if flush then
          let id ← add anchor ⟨listTag, .sequence []⟩
          fill id listTag (.sequence (← flushItems n))
        else orEmpty anchor tag
      | .blockSequence =>
        if block then
          let id ← add anchor ⟨listTag, .sequence []⟩
          advance
          fill id listTag (.sequence (← blockItems n))
        else orEmpty anchor tag
      | .blockMapping =>
        if block then
          let id ← add anchor ⟨mapTag, .mapping []⟩
          advance
          fill id mapTag (.mapping (← blockPairs n))
        else orEmpty anchor tag
      | _ => orEmpty anchor tag
where
  /-- A node of which only the anchor or the tag is there. -/
  orEmpty (anchor tag : Option (List Char)) : Build NodeId :=
    if anchor.isSome || tag.isSome then add anchor (ofScalar tag true []) else throw .malformed

/-- A node, which is left out in front of certain tokens. -/
def readUnless (stops : List Token) (block flush : Bool) : Nat → Build NodeId
  | 0 => throw .malformed
  | n + 1 => do if stops.contains (← peek) then add none empty else read block flush n

/-- The items of an indented sequence. -/
def blockItems : Nat → Build (List NodeId)
  | 0 => throw .malformed
  | n + 1 => do
    if ← takes .entry then
      let item ← readUnless [.entry, .blockEnd] true false n
      return item :: (← blockItems n)
    else
      expect .blockEnd
      return []

/-- The items of a sequence that is not indented. -/
def flushItems : Nat → Build (List NodeId)
  | 0 => throw .malformed
  | n + 1 => do
    if ← takes .entry then
      let item ← readUnless [.entry, .key, .value, .blockEnd] true false n
      return item :: (← flushItems n)
    else return []

/-- The pairs of a block mapping. -/
def blockPairs : Nat → Build (List (NodeId × NodeId))
  | 0 => throw .malformed
  | n + 1 => do
    if ← takes .key then
      let key ← readUnless [.key, .value, .blockEnd] true true n
      let value ←
        if ← takes .value then readUnless [.key, .value, .blockEnd] true true n else add none empty
      return (key, value) :: (← blockPairs n)
    else
      expect .blockEnd
      return []

/-- The items of a flow sequence; a pair among them is a mapping of its own. -/
def flowItems (first : Bool) : Nat → Build (List NodeId)
  | 0 => throw .malformed
  | n + 1 => do
    if ← takes .closeSequence then return []
    unless first do expect .comma
    if ← takes .key then
      let id ← add none ⟨.mapping, .mapping []⟩
      let key ← readUnless [.value, .comma, .closeSequence] false false n
      let value ←
        if ← takes .value then readUnless [.comma, .closeSequence] false false n else add none empty
      return (← fill id .mapping (.mapping [(key, value)])) :: (← flowItems false n)
    else if ← takes .closeSequence then return []
    else
      let item ← read false false n
      return item :: (← flowItems false n)

/-- The pairs of a flow mapping; a key may stand there alone. -/
def flowPairs (first : Bool) : Nat → Build (List (NodeId × NodeId))
  | 0 => throw .malformed
  | n + 1 => do
    if ← takes .closeMapping then return []
    unless first do expect .comma
    if ← takes .key then
      let key ← readUnless [.value, .comma, .closeMapping] false false n
      let value ←
        if ← takes .value then readUnless [.comma, .closeMapping] false false n else add none empty
      return (key, value) :: (← flowPairs false n)
    else if ← takes .closeMapping then return []
    else
      let key ← read false false n
      return (key, ← add none empty) :: (← flowPairs false n)

end

/-! ### Documents -/

/-- What the tag handles stand for that are always there. -/
def standardHandles : Table (List Char) (List Char) :=
  [(['!'], ['!']), (['!', '!'], Tag.standardStart)]

/-- The directives in front of a document: at most one version, which must be of the first kind,
and handles, each given once. -/
def directives (version : Bool) (given : Table (List Char) (List Char)) :
    List Token → Except Fault (Table (List Char) (List Char) × List Token)
  | .version major :: ts =>
    if version || major ≠ 1 then .error .malformed else directives true given ts
  | .handle handle target :: ts =>
    if (Table.get? given handle).isSome then .error .malformed
    else directives version (given.set handle target) ts
  | .otherDirective :: ts => directives version given ts
  | ts => .ok (given, ts)

/-- What stands in front of a document: what the tag handles in it stand for, and the tokens
after its start. -/
def start (tokens : List Token) :
    Except Fault (Table (List Char) (List Char) × List Token) := do
  let (given, rest) ← directives false [] tokens
  if (← front rest) = .documentStart then return (given ++ standardHandles, rest.drop 1)
  else throw .malformed

/-- The token stands in front of a document. -/
def startsDocument : Token → Bool
  | .version _ => true
  | .handle _ _ => true
  | .otherDirective => true
  | .documentStart => true
  | _ => false

/-- The token stands where a document has no contents. -/
def endsDocument (t : Token) : Bool := startsDocument t || t = .documentEnd || t = .finish

/-- Nothing stands in the tokens after a document but its end; another document is malformed,
and so is anything else. -/
def atEnd (tokens : List Token) : Except Fault Unit := do
  let rest := tokens.dropWhile (· = .documentEnd)
  unless (← front rest) = .finish do
    let _ ← start rest
    throw .malformed

/-- The nodes of a document, and its root. -/
def document (handles : Table (List Char) (List Char)) (tokens : List Token) :
    Except Fault (Graph × NodeId) := do
  let (root, p) ← (read true false (6 * tokens.length + 6)).run { tokens, handles }
  atEnd p.tokens
  return (p.nodes, root)

/-- The nodes of a text, and its root; a text without contents has none. -/
def ofTokens (tokens : List Token) : Except Fault (Option (Graph × NodeId)) := do
  let first ← front tokens
  if first = .finish then return none
  else if startsDocument first then
    let (handles, rest) ← start tokens
    if endsDocument (← front rest) then
      atEnd rest
      return some (#[empty], 0)
    else return some (← document handles rest)
  else return some (← document standardHandles tokens)

end Node

end ApiOutline.Yaml
