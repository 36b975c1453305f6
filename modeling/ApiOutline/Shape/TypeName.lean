/-
ApiOutline/Shape/TypeName.lean

The six types of an outline, and the marker in front of a type.

Design.  A type is written by its one-letter code or by its full name.  In front
of it `?` says optional and `+` says required; with no marker a value is
required as well, but the writer did not say so.
-/

namespace ApiOutline

/-- The type of a value. -/
inductive TypeName where
  | integer
  | string
  | boolean
  | number
  | object
  | array
deriving DecidableEq, Repr, Inhabited

namespace TypeName

/-- All types. -/
def all : List TypeName := [integer, string, boolean, number, object, array]

/-- The full name of a type. -/
def name : TypeName → String
  | integer => "integer"
  | string => "string"
  | boolean => "boolean"
  | number => "number"
  | object => "object"
  | array => "array"

/-- The one-letter code of a type. -/
def code : TypeName → Char
  | integer => 'i'
  | string => 's'
  | boolean => 'b'
  | number => 'n'
  | object => 'o'
  | array => 'a'

/-- The type with a full name. -/
def named? (cs : List Char) : Option TypeName := all.find? fun t => t.name.toList = cs

/-- The type with a code or a full name. -/
def ofTag? (cs : List Char) : Option TypeName :=
  all.find? fun t => cs = [t.code] ∨ cs = t.name.toList

end TypeName

/-- A marker in front of a type. -/
inductive Marker where
  | optional
  | required
deriving DecidableEq, Repr

namespace Marker

/-- The marker that a character is. -/
def ofChar? (c : Char) : Option Marker :=
  if c = '?' then some optional else if c = '+' then some required else none

/-- The marker in front of a tag, and the tag after it. -/
def split : List Char → Option Marker × List Char
  | [] => (none, [])
  | c :: cs =>
    match ofChar? c with
    | some m => (some m, cs)
    | none => (none, c :: cs)

/-- A value is required unless it is marked optional. -/
def requires (m : Option Marker) : Bool := m ≠ some optional

end Marker

end ApiOutline
