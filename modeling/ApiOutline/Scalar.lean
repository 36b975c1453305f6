/-
ApiOutline/Scalar.lean

The plain values that an example can be.
-/
import ApiOutline.Number.Binary64

namespace ApiOutline

/-- A plain value. -/
inductive Scalar where
  | text (value : String)
  | integer (value : Int)
  | float (value : Binary64)
  | boolean (value : Bool)
deriving DecidableEq, Repr, Inhabited

namespace Scalar

/-- Equality by value: a whole number equals the floating-point number of the same value, and
zeros of both signs are equal. -/
def alike : Scalar → Scalar → Bool
  | text a, text b => a = b
  | integer a, integer b => a = b
  | integer a, float x => x.toInt? = some a
  | float x, integer a => x.toInt? = some a
  | float x, float y => x.alike y
  | boolean a, boolean b => a = b
  | _, _ => false

/-- The value is no infinity and not `nan`. -/
def isFinite : Scalar → Bool
  | float x => x.isFinite
  | _ => true

end Scalar

end ApiOutline
