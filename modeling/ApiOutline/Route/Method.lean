/-
ApiOutline/Route/Method.lean

The methods that an operation can have.
-/
import ApiOutline.Fault
import ApiOutline.Text.LowerCase

namespace ApiOutline

/-- The method of an operation. -/
inductive Method where
  | get
  | post
  | put
  | patch
  | delete
  | head
  | options
deriving DecidableEq, Repr, Inhabited

namespace Method

/-- All methods. -/
def all : List Method := [get, post, put, patch, delete, head, options]

/-- The name of a method, in small letters. -/
def name : Method → String
  | get => "get"
  | post => "post"
  | put => "put"
  | patch => "patch"
  | delete => "delete"
  | head => "head"
  | options => "options"

/-- The name of a method, in capitals. -/
def upperName : Method → String
  | get => "GET"
  | post => "POST"
  | put => "PUT"
  | patch => "PATCH"
  | delete => "DELETE"
  | head => "HEAD"
  | options => "OPTIONS"

/-- The method of a name in small letters. -/
def named? (name : String) : Option Method := all.find? fun m => m.name = name

/-- The method of a name in letters of either case. -/
def read (name : String) : Except Fault Method :=
  let lower := String.ofList (Text.lowerCase name.toList)
  match named? lower with
  | some m => .ok m
  | none => .error (.unsupportedMethod lower)

@[simp] theorem named?_name (m : Method) : named? m.name = some m := by cases m <;> rfl

end Method

end ApiOutline
