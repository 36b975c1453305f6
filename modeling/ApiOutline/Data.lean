/-
ApiOutline/Data.lean

Values as a reader finds them, before anything is known of their form.

Design.  The keys of a mapping can be any values, as in a YAML file; entries
stand in their order.  Bytes are kept apart from text, which they may or may not
be (`text?`).
-/
import ApiOutline.Json.Basic
import ApiOutline.Timestamp

namespace ApiOutline

/-- A value of any form. -/
inductive Data where
  | null
  | boolean (value : Bool)
  | integer (value : Int)
  | float (value : Binary64)
  | text (value : String)
  | bytes (value : List UInt8)
  | timestamp (value : Timestamp)
  | list (items : List Data)
  | map (entries : List (Data × Data))
deriving Repr, Inhabited

namespace Data

/-- The value of a text key. -/
def field? : List (Data × Data) → String → Option Data
  | [], _ => none
  | (k, v) :: es, name =>
    match k with
    | text s => if s = name then some v else field? es name
    | _ => field? es name

/-- The text that a value is: bytes are text if they encode one. -/
def text? : Data → Option String
  | text s => some s
  | bytes bs => String.fromUTF8? ⟨bs.toArray⟩
  | _ => none

/-- The whole number that a key counts as: booleans are 0 and 1. -/
def keyInteger? : Data → Option Int
  | boolean b => some (if b then 1 else 0)
  | integer n => some n
  | float x => x.toInt?
  | _ => none

/-- The number is a signed word of 64 bits. -/
def fitsWord (n : Int) : Bool := -0x8000000000000000 ≤ n && n < 0x8000000000000000

/-- Two keys are one and the same: numbers by value, timestamps by what they name, other values
as they are. -/
def sameKey (a b : Data) : Bool :=
  match a, b with
  | null, null => true
  | text s, text t => s = t
  | bytes s, bytes t => s = t
  | timestamp s, timestamp t => s.same t
  | float x, float y => x = y || x.alike y
  | a, b =>
    match a.keyInteger?, b.keyInteger? with
    | some m, some n => m = n
    | _, _ => false

mutual

/-- A document value, read as a value of any form. -/
def ofJson : Json → Data
  | .null => null
  | .boolean b => boolean b
  | .integer n => integer n
  | .float x => float x
  | .text s => text s
  | .array items => list (ofItems items)
  | .object fields => map (ofFields fields)

/-- The items of an array. -/
def ofItems : List Json → List Data
  | [] => []
  | v :: vs => ofJson v :: ofItems vs

/-- The fields of an object. -/
def ofFields : List (String × Json) → List (Data × Data)
  | [] => []
  | (k, v) :: fs => (text k, ofJson v) :: ofFields fs

end

@[simp] theorem field?_nil (name : String) : field? [] name = none := rfl

@[simp] theorem field?_text (k name : String) (v : Data) (es : List (Data × Data)) :
    field? ((text k, v) :: es) name = if k = name then some v else field? es name := rfl

end Data

end ApiOutline
