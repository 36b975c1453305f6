/-
ApiOutline/Fault.lean

What can go wrong while a document is put together.
-/
import ApiOutline.Checked
import ApiOutline.Shape.Fault

namespace ApiOutline

/-- Why a step is refused. -/
inductive Fault where
  /-- an outline does not compile -/
  | outline (fault : Shape.Fault)
  /-- an outline is not even text -/
  | notText
  /-- no operation can have this method -/
  | unsupportedMethod (name : String)
  /-- a value has not the form it should have; one place for each complaint -/
  | invalid (places : List Place)
  /-- a parameter is given neither as text nor as a mapping -/
  | notParameter
  /-- the schema of a parameter is no mapping -/
  | notParameterSchema
  /-- the code of a response is a number with too many digits to be written -/
  | longCode
  /-- no operation is held under this handle -/
  | unknownHandle (handle : String)
deriving DecidableEq, Repr

namespace Fault

/-- The text of a fault. -/
def message : Fault → String
  | outline f => f.message
  | notText => "Schema must be a string"
  | unsupportedMethod name => "Unsupported HTTP method: " ++ name
  | invalid places =>
    toString places.length ++ " validation error" ++ (if places.length = 1 then "" else "s")
  | notParameter => "a parameter is neither text nor a mapping"
  | notParameterSchema => "the schema of a parameter is no mapping"
  | longCode => Literal.limitMessage none
  | unknownHandle handle => "no operation is held under " ++ handle

/-- The value of a check, or the fault that it is invalid. -/
def ofChecked {α : Type} : Checked α → Except Fault α
  | .accepted a => .ok a
  | .refused places => .error (.invalid places)

end Fault

end ApiOutline
