/-
ApiOutline/Shape/Compile.lean

Outlines, compiled to schema trees.

Design.  The nested blocks of an outline are taken out first (`Flat.ofText`), so
that what is left can be split at commas and colons.  Then the texts are
resolved to nodes; a text that is a placeholder is the block it stands for.
Resolving is written with open recursion: `inner` resolves the blocks that a
text refers to.  A chain of blocks each of which refers to the next is no longer
than there are blocks, unless a block comes twice in it and so stands inside
itself; hence `resolveBlock` counts the depth down from the number of blocks,
and a chain that goes deeper is a self-reference.
-/
import ApiOutline.Notice
import ApiOutline.Shape.Block
import ApiOutline.Shape.Fault
import ApiOutline.Shape.Schema
import ApiOutline.Text.Blank
import ApiOutline.Traced

namespace ApiOutline.Shape

open Text

/-- A result or a reason to stop, and remarks. -/
abbrev Outcome := Traced Notice Stop

/-- Stops at a defect. -/
def reject {α : Type} (d : Defect) : Outcome α := Traced.fail (.defect d)

/-! ### The parts of a value -/

/-- The block that a text stands for, if the text is a placeholder. -/
def block? (blocks : List Block) (text : List Char) : Outcome (Option Block) :=
  if Block.isReference text then
    let n := Literal.digitsValue (text.drop 1)
    match blocks[n]? with
    | some b =>
      if Block.placeholder n = text then pure (some b)
      else reject (.unknownPlaceholder (String.ofList text))
    | none => reject (.unknownPlaceholder (String.ofList text))
  else pure none

/-- The type that a tag names: no tag is the string type, and so is an unknown one. -/
def typeOf (tag : List Char) : Outcome TypeName :=
  if tag = [] then pure .string
  else if Block.mentionsPlaceholder tag then reject (.blockInTag (String.ofList tag))
  else
    match TypeName.ofTag? tag with
    | some t => pure t
    | none => do
      Traced.note (.unknownType (String.ofList tag))
      pure .string

/-- The example that a default gives: an empty default gives none. -/
def exampleOf (type : TypeName) (default : List Char) : Outcome (Option Scalar) :=
  if default = [] then pure none
  else if Block.mentionsPlaceholder default then reject (.blockInDefault (String.ofList default))
  else
    Traced.ofExcept <|
      ((Default.read type default).map some).mapError fun f => .defect (.literal f)

/-! ### Texts -/

section Resolve

variable (blocks : List Block) (inner : Block → Outcome Schema)

/-- Resolves a value: a marker, a type or a block, and a default after a colon. -/
def resolveValue (text : List Char) : Outcome Schema := do
  let tag := Marker.split (cut ':' text).1
  let node ←
    match ← block? blocks tag.2 with
    | some b => inner b
    | none => do
      let t ← typeOf tag.2
      pure (.plain t {})
  let example? ← exampleOf node.type (cut ':' text).2
  pure (node.withNote ⟨example?, some (Marker.requires tag.1)⟩)

/-- Resolves a text whose name may be left out: the root or an array item. -/
def resolveItem (text : List Char) : Outcome Schema := do
  match ← block? blocks text with
  | some b => inner b
  | none => resolveValue blocks inner (if ':' ∈ text then (cut ':' text).2 else text)

/-- Adds an item unless the array has one like it. -/
def addItem (items : List Schema) (item : Schema) : List Schema :=
  if items.any fun s => s.alike item then items else items ++ [item]

/-- Resolves the items of an array whose body is given, after those resolved before. -/
def resolveItems (body : List Char) : List Schema → List (List Char) → Outcome (List Schema)
  | items, [] => pure items
  | items, text :: texts => do
    if body ≠ [] ∧ text = [] then reject (.emptyItem (String.ofList body))
    let item ← resolveItem blocks inner text
    resolveItems body (addItem items item) texts

/-- Resolves the properties of an object, after those resolved before. -/
def resolveProperties :
    Table String Schema → List (List Char) → Outcome (Table String Schema)
  | properties, [] => pure properties
  | properties, pair :: pairs => do
    let name := (cut ':' pair).1
    if name = [] then reject (.missingName (String.ofList pair))
    if Block.mentionsPlaceholder name then reject (.blockInName (String.ofList name))
    let value ← resolveValue blocks inner (cut ':' pair).2
    resolveProperties (properties.set (String.ofList name) value) pairs

/-- Resolves what stands between the brackets of a block. -/
def resolveBody (b : Block) : Outcome Schema :=
  match b.kind with
  | .array => do
    let items ← resolveItems blocks inner b.body [] (pieces ',' b.body)
    pure (.array items {})
  | .object => do
    let properties ←
      if b.body = [] then pure [] else resolveProperties blocks inner [] (pieces ',' b.body)
    pure (.object properties {})

end Resolve

/-- Resolves a block in whose chain of references at most `depth` blocks may still come. -/
def resolveBlock (blocks : List Block) : Nat → Block → Outcome Schema
  | 0, _ => Traced.fail .selfReference
  | depth + 1, b => resolveBody blocks (resolveBlock blocks depth) b

/-! ### Outlines -/

/-- Resolves a text without nested blocks. -/
def resolveFlat (flat : Flat) : Outcome Schema :=
  if flat.balanced then
    resolveItem flat.blocks (resolveBlock flat.blocks flat.blocks.length) flat.root
  else reject (.unbalanced (String.ofList flat.root))

/-- Compiles an outline that holds no blank. -/
def compileSource (source : List Char) : Outcome Schema := resolveFlat (Flat.ofText source)

/-- Compiles an outline; blanks do not count. -/
def compile (text : String) : Traced Notice Fault Schema :=
  let source := squeeze text.toList
  let outcome := compileSource source
  match outcome.result with
  | .ok s => ⟨outcome.notes, .ok s⟩
  | .error .selfReference => ⟨outcome.notes, .error .selfReference⟩
  | .error (.defect d) =>
    ⟨outcome.notes ++ [.malformed (String.ofList source) d.message],
      .error (.malformed (String.ofList source) d)⟩

/-- What compiling comes to, told by what resolving comes to. -/
theorem result_compile (text : String) :
    (compile text).result =
      match (compileSource (squeeze text.toList)).result with
      | .ok s => .ok s
      | .error .selfReference => .error .selfReference
      | .error (.defect d) => .error (.malformed (String.ofList (squeeze text.toList)) d) := by
  rw [compile]
  rcases (compileSource (squeeze text.toList)).result with (d | -) | s <;> rfl

end ApiOutline.Shape
