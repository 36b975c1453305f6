/-
ApiOutline/Shape/Schema.lean

Schema trees.

Design.  A node is a plain type, an object with named properties, or an array of
one kind of item or of a choice of several.  Each node carries a note: an
example, and whether it is required, both of which may be left out.  Two nodes
are alike when they say the same; the order in which properties are listed does
not count, and examples are compared by value.
-/
import ApiOutline.Json.Basic
import ApiOutline.Shape.TypeName

namespace ApiOutline

/-- What is said about a node besides its structure. -/
structure Note where
  example? : Option Scalar := none
  required? : Option Bool := none
deriving DecidableEq, Repr, Inhabited

/-- A schema tree. -/
inductive Schema where
  | plain (type : TypeName) (note : Note)
  | object (properties : List (String × Schema)) (note : Note)
  | array (items : List Schema) (note : Note)
deriving Repr, Inhabited

namespace Note

/-- The examples have equal values, and the requirements are the same. -/
def alike (m n : Note) : Bool :=
  (match m.example?, n.example? with
   | none, none => true
   | some a, some b => a.alike b
   | _, _ => false) && m.required? = n.required?

/-- The fields of a node that its note gives. -/
def fields (n : Note) : List (String × Json) :=
  Json.field? "example" (n.example?.map Json.ofScalar) ++
    Json.field? "required" (n.required?.map Json.boolean)

end Note

namespace Schema

/-- The type of a node. -/
def type : Schema → TypeName
  | plain t _ => t
  | object .. => .object
  | array .. => .array

/-- The note of a node. -/
def note : Schema → Note
  | plain _ n => n
  | object _ n => n
  | array _ n => n

/-- The node with another note. -/
def withNote (n : Note) : Schema → Schema
  | plain t _ => plain t n
  | object ps _ => object ps n
  | array items _ => array items n

@[simp] theorem type_withNote (n : Note) (s : Schema) : (s.withNote n).type = s.type := by
  cases s <;> rfl

@[simp] theorem note_withNote (n : Note) (s : Schema) : (s.withNote n).note = n := by
  cases s <;> rfl

mutual

/-- The nodes say the same. -/
def alike : Schema → Schema → Bool
  | plain t m, plain u n => t = u && m.alike n
  | object ps m, object qs n => ps.length = qs.length && found ps qs && m.alike n
  | array xs m, array ys n => itemsAlike xs ys && m.alike n
  | _, _ => false

/-- Every property on the left has one like it on the right. -/
def found : List (String × Schema) → List (String × Schema) → Bool
  | [], _ => true
  | (k, s) :: ps, qs =>
    (match Table.get? qs k with
     | some t => s.alike t
     | none => false) && found ps qs

/-- The lists are alike item by item. -/
def itemsAlike : List Schema → List Schema → Bool
  | [], [] => true
  | s :: ss, t :: ts => s.alike t && itemsAlike ss ts
  | _, _ => false

end

/-! ### Written form -/

/-- One item stands alone; several are a choice. -/
def choice : List Json → Json
  | [v] => v
  | vs => .object [("oneOf", .array vs)]

mutual

/-- The fields of a node. -/
def fields : Schema → List (String × Json)
  | plain t n => ("type", .text t.name) :: n.fields
  | object ps n =>
    ("type", .text "object") :: ("properties", .object (propertyFields ps)) :: n.fields
  | array items n => ("type", .text "array") :: ("items", choice (itemNodes items)) :: n.fields

/-- The properties, each as a node. -/
def propertyFields : List (String × Schema) → List (String × Json)
  | [] => []
  | (k, s) :: ps => (k, .object s.fields) :: propertyFields ps

/-- The items, each as a node. -/
def itemNodes : List Schema → List Json
  | [] => []
  | s :: ss => .object s.fields :: itemNodes ss

end

/-- The node as a document value. -/
def toJson (s : Schema) : Json := .object s.fields

theorem propertyFields_eq_map (ps : List (String × Schema)) :
    propertyFields ps = ps.map fun p => (p.1, p.2.toJson) := by
  induction ps with
  | nil => rfl
  | cons p ps ih => rw [propertyFields, ih, List.map_cons, toJson]

theorem itemNodes_eq_map (items : List Schema) : itemNodes items = items.map toJson := by
  induction items with
  | nil => rfl
  | cons s items ih => rw [itemNodes, ih, List.map_cons, toJson]

/-- The tree as a document value: its root has an empty description too. -/
def rootJson (s : Schema) : Json := .object (s.fields ++ [("description", .text "")])

end Schema

end ApiOutline
