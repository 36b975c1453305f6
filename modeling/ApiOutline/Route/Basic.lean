/-
ApiOutline/Route/Basic.lean

Routes: a path, known by the key of its template, and a method.
-/
import ApiOutline.Route.Method
import ApiOutline.Route.Template

namespace ApiOutline

/-- The key of an operation in a document. -/
structure Route where
  key : String
  method : Method
deriving DecidableEq, Repr, Inhabited

/-- The key of a template, under which all its routes are known. -/
def Template.keyOf (template : String) : String :=
  String.ofList (Template.key template.toList)

/-- The route that a template and a method name. -/
def Route.of (template : String) (method : Method) : Route := ⟨Template.keyOf template, method⟩

end ApiOutline
