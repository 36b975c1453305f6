/-
ApiOutline/Yaml/Tag.lean

Tags: the kinds of node that a YAML text can write.

Design.  Every node has one tag, which is written at it or follows from its
form.  A tag alone does not make a node a collection: a scalar can carry the tag
of a sequence, and is then refused when its value is read.
-/

namespace ApiOutline.Yaml

/-- The kind of a node. -/
inductive Tag where
  | null
  | boolean
  | integer
  | float
  | binary
  | timestamp
  | text
  /-- the key of a merge -/
  | merge
  /-- the key of the scalar that a mapping stands for -/
  | value
  | sequence
  | mapping
  | set
  | orderedMap
  | pairs
  /-- no value has this tag -/
  | unknown
deriving DecidableEq, Repr, Inhabited

namespace Tag

/-- The start of the standard tags. -/
def standardStart : List Char := "tag:yaml.org,2002:".toList

/-- The standard tags without their start. -/
def standard : List (String × Tag) :=
  [("null", null), ("bool", boolean), ("int", integer), ("float", float), ("binary", binary),
   ("timestamp", timestamp), ("str", text), ("merge", merge), ("value", value),
   ("seq", sequence), ("map", mapping), ("set", set), ("omap", orderedMap), ("pairs", pairs)]

/-- The tag with a name. -/
def named (name : List Char) : Tag :=
  match standard.find? fun t => standardStart ++ t.1.toList = name with
  | some t => t.2
  | none => unknown

end Tag

end ApiOutline.Yaml
