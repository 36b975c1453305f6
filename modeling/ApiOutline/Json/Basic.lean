/-
ApiOutline/Json/Basic.lean

Documents as values: ordered objects, and whole numbers kept apart from
floating-point numbers.
-/
import ApiOutline.Number.Literal
import ApiOutline.Scalar
import ApiOutline.Table

namespace ApiOutline

/-- A document value.  The fields of an object stand in their order. -/
inductive Json where
  | null
  | boolean (value : Bool)
  | integer (value : Int)
  | float (value : Binary64)
  | text (value : String)
  | array (items : List Json)
  | object (fields : List (String × Json))
deriving Repr, Inhabited

namespace Json

/-- A plain value as a document value. -/
def ofScalar : Scalar → Json
  | .text s => text s
  | .integer n => integer n
  | .float x => float x
  | .boolean b => boolean b

/-- A field that is there only with a value. -/
def field? (name : String) : Option Json → List (String × Json)
  | some v => [(name, v)]
  | none => []

mutual

/-- No number in the value is an infinity or `nan`. -/
def isFinite : Json → Bool
  | float x => x.isFinite
  | array items => itemsFinite items
  | object fields => fieldsFinite fields
  | _ => true

/-- The same for every item of an array. -/
def itemsFinite : List Json → Bool
  | [] => true
  | v :: vs => v.isFinite && itemsFinite vs

/-- The same for every field of an object. -/
def fieldsFinite : List (String × Json) → Bool
  | [] => true
  | (_, v) :: fs => v.isFinite && fieldsFinite fs

end

@[simp] theorem isFinite_null : null.isFinite = true := rfl

@[simp] theorem isFinite_boolean (b : Bool) : (boolean b).isFinite = true := rfl

@[simp] theorem isFinite_integer (n : Int) : (integer n).isFinite = true := rfl

@[simp] theorem isFinite_float (x : Binary64) : (float x).isFinite = x.isFinite := rfl

@[simp] theorem isFinite_text (s : String) : (text s).isFinite = true := rfl

@[simp] theorem isFinite_array (items : List Json) :
    (array items).isFinite = items.all isFinite := by
  rw [isFinite]
  induction items with
  | nil => rfl
  | cons v items ih => rw [itemsFinite, ih, List.all_cons]

@[simp] theorem isFinite_object (fields : List (String × Json)) :
    (object fields).isFinite = fields.all fun f => f.2.isFinite := by
  rw [isFinite]
  induction fields with
  | nil => rfl
  | cons f fields ih => rw [fieldsFinite, ih, List.all_cons]

mutual

/-- Every whole number in the value has few enough digits to be written. -/
def isWritable : Json → Bool
  | integer n => Literal.isWritable n
  | array items => itemsWritable items
  | object fields => fieldsWritable fields
  | _ => true

/-- The same for every item of an array. -/
def itemsWritable : List Json → Bool
  | [] => true
  | v :: vs => v.isWritable && itemsWritable vs

/-- The same for every field of an object. -/
def fieldsWritable : List (String × Json) → Bool
  | [] => true
  | (_, v) :: fs => v.isWritable && fieldsWritable fs

end

end Json

end ApiOutline
