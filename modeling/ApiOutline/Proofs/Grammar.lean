/-
ApiOutline/Proofs/Grammar.lean

Outlines as syntax trees: how they are written, and what they mean.

Design.  A value is a marker, a core and a default; a core is a tag, or an object
or array of values and items; an item is a core with an optional marker, or a
value with a name in front.  `text` writes a tree down, and `denote` says which
schema it describes, by recursion on the tree and without looking at any text.
The words of a tree hold no character with a meaning of its own (`Word`, `Name`);
what else could be mistaken for something different is excluded by `wellFormed`.

An object or array without marker and name is a bare block; it is the only item
about whose being required nothing is said.
-/
import ApiOutline.Shape.Compile

namespace ApiOutline.Outline

/-! ### Words -/

/-- The character has no meaning of its own in an outline, except perhaps that of a colon. -/
def isWordChar (c : Char) : Bool :=
  !Text.isBlank c && !Block.isBracket c && c ≠ '$' && c ≠ ','

/-- A text that stands in an outline as it is. -/
structure Word where
  chars : List Char
  plain : chars.all isWordChar = true
deriving DecidableEq, Repr

/-- A word without colons. -/
structure Name extends Word where
  noColon : ':' ∉ chars
deriving DecidableEq, Repr

/-! ### Trees -/

mutual

/-- A tag, an object or an array. -/
inductive Core where
  | tag (name : Name)
  | object (properties : List (Name × Value))
  | array (items : List Item)

/-- A core with a marker and a default; the empty word is no default. -/
inductive Value where
  | mk (marker : Option Marker) (core : Core) (default : Word)

/-- An item of an array, or a whole outline. -/
inductive Item where
  | unnamed (marker : Option Marker) (core : Core)
  | named (name : Name) (value : Value)

end

/-- The core is an object or an array. -/
def Core.isBlock : Core → Bool
  | tag _ => false
  | object _ => true
  | array _ => true

/-! ### Written form -/

/-- A marker, written. -/
def markerText : Option Marker → List Char
  | none => []
  | some .optional => ['?']
  | some .required => ['+']

/-- A default, written. -/
def defaultText (default : Word) : List Char :=
  if default.chars = [] then [] else ':' :: default.chars

mutual

/-- A core, written. -/
def Core.text : Core → List Char
  | .tag name => name.chars
  | .object properties => '{' :: (Text.join ',' (propertyTexts properties) ++ ['}'])
  | .array items => '[' :: (Text.join ',' (itemTexts items) ++ [']'])

/-- A value, written. -/
def Value.text : Value → List Char
  | .mk marker core default => markerText marker ++ (core.text ++ defaultText default)

/-- An item, written. -/
def Item.text : Item → List Char
  | .unnamed marker core => markerText marker ++ core.text
  | .named name value => name.chars ++ ':' :: value.text

/-- The properties of an object, written one by one. -/
def propertyTexts : List (Name × Value) → List (List Char)
  | [] => []
  | (name, value) :: properties => (name.chars ++ ':' :: value.text) :: propertyTexts properties

/-- The items of an array, written one by one. -/
def itemTexts : List Item → List (List Char)
  | [] => []
  | item :: items => item.text :: itemTexts items

end

/-! ### Trees that can be read back -/

/-- A tag without marker does not start like a marker. -/
def tagFits (marker : Option Marker) : Core → Bool
  | .tag name => marker.isSome || (name.chars.head?.bind Marker.ofChar?).isNone
  | _ => true

mutual

/-- No part of the core could be read as something else. -/
def Core.wellFormed : Core → Bool
  | .tag _ => true
  | .object properties => propertiesWellFormed properties
  | .array items =>
    itemsWellFormed items && (items.length ≤ 1 || (itemTexts items).all fun t => t ≠ [])

/-- No part of the value could be read as something else. -/
def Value.wellFormed : Value → Bool
  | .mk marker core _ => tagFits marker core && core.wellFormed

/-- No part of the item could be read as something else. -/
def Item.wellFormed : Item → Bool
  | .unnamed marker core => tagFits marker core && core.wellFormed
  | .named _ value => value.wellFormed

/-- Every property has a name. -/
def propertiesWellFormed : List (Name × Value) → Bool
  | [] => true
  | (name, value) :: properties =>
    name.chars ≠ [] && value.wellFormed && propertiesWellFormed properties

/-- The same for every item. -/
def itemsWellFormed : List Item → Bool
  | [] => true
  | item :: items => item.wellFormed && itemsWellFormed items

end

/-! ### Meaning -/

/-- Nodes without those that say the same as one before them. -/
def distinct (nodes : List Schema) : List Schema :=
  nodes.eraseDupsBy fun node kept => kept.alike node

/-- Properties without repetition: a name stands where it came first, with the node that it was
given last. -/
def latest (entries : List (String × Schema)) : List (String × Schema) :=
  (entries.map Prod.fst).eraseDups.filterMap fun name =>
    (entries.reverse.find? fun e => e.1 = name).map fun e => (name, e.2)

/-- The example that a default gives to a node of some type. -/
def exampleOf (type : TypeName) (default : Word) : Except LiteralFault (Option Scalar) :=
  if default.chars = [] then .ok none else (Default.read type default.chars).map some

/-- The node with what a value says about it. -/
def annotate (marker : Option Marker) (default : Word) (node : Schema) :
    Except LiteralFault Schema := do
  let example? ← exampleOf node.type default
  pure (node.withNote ⟨example?, some (Marker.requires marker)⟩)

/-- A required string, which an array without items is an array of. -/
def anyString : Schema := .plain .string ⟨none, some true⟩

mutual

/-- The node that a core describes. -/
def Core.denote : Core → Except LiteralFault Schema
  | .tag name => .ok (.plain ((TypeName.ofTag? name.chars).getD .string) {})
  | .object properties => do
    let entries ← propertiesDenote properties
    pure (.object (latest entries) {})
  | .array items => do
    let nodes ← itemsDenote items
    pure (.array (if items.isEmpty then [anyString] else distinct nodes) {})

/-- The node that a value describes. -/
def Value.denote : Value → Except LiteralFault Schema
  | .mk marker core default => do
    let node ← core.denote
    annotate marker default node

/-- The node that an item describes. -/
def Item.denote : Item → Except LiteralFault Schema
  | .unnamed marker core => do
    let node ← core.denote
    pure (if marker = none ∧ core.isBlock then node
      else node.withNote ⟨none, some (Marker.requires marker)⟩)
  | .named _ value => value.denote

/-- The properties of an object, in the order in which they are written. -/
def propertiesDenote : List (Name × Value) → Except LiteralFault (List (String × Schema))
  | [] => .ok []
  | (name, value) :: properties => do
    let node ← value.denote
    let entries ← propertiesDenote properties
    pure ((String.ofList name.chars, node) :: entries)

/-- The items of an array, in the order in which they are written. -/
def itemsDenote : List Item → Except LiteralFault (List Schema)
  | [] => .ok []
  | item :: items => do
    let node ← item.denote
    let nodes ← itemsDenote items
    pure (node :: nodes)

end

end ApiOutline.Outline
