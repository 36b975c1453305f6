/-
ApiOutline/Notice.lean

What a run reports about its own course.
-/
import ApiOutline.Text.Quoted

namespace ApiOutline

/-- A remark that a run makes on the way. -/
inductive Notice where
  /-- an unknown type code is read as the string type -/
  | unknownType (code : String)
  /-- an outline could not be compiled -/
  | malformed (source cause : String)
  /-- a route was registered -/
  | registered (method key : String)
deriving DecidableEq, Repr

namespace Notice

/-- The line that a log shows for a remark. -/
def line : Notice → String
  | unknownType code =>
    "DEBUG flat_openapi.parser.shape: Unknown type code " ++
      String.ofList (Text.quoted code.toList) ++ ", falling back to string"
  | malformed source cause =>
    "DEBUG flat_openapi.parser.shape: Failed to compile " ++
      String.ofList (Text.quoted source.toList) ++ ": " ++ cause
  | registered method key =>
    "DEBUG flat_openapi.generator.document: Registered " ++ method ++ " " ++ key

end Notice

end ApiOutline
