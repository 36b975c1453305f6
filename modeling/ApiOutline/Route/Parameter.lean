/-
ApiOutline/Route/Parameter.lean

Parameters of an operation.

Design.  A parameter is declared by a path template, by a shorthand
`name:type:default`, or by a definition, which is a mapping in the form that
`toJson` writes or in a flat form.  A shorthand never fails: an unknown type is
the string type, and a default that is no value of its type is kept as text.
-/
import ApiOutline.Fault
import ApiOutline.Route.Template
import ApiOutline.Text.Blank

namespace ApiOutline

open Text

/-- A parameter of an operation. -/
structure Parameter where
  name : String
  location : String
  required : Bool
  type : String := "string"
  description : String := ""
  example? : Option Scalar := none
deriving DecidableEq, Repr, Inhabited

namespace Parameter

/-- The schema of a parameter. -/
def schemaJson (p : Parameter) : Json :=
  .object (("type", .text p.type) :: Json.field? "example" (p.example?.map Json.ofScalar))

/-- The parameter as part of a document. -/
def toJson (p : Parameter) : Json :=
  .object
    ([("name", .text p.name), ("in", .text p.location), ("required", .boolean p.required),
        ("schema", p.schemaJson)] ++
      if p.description = "" then [] else [("description", .text p.description)])

/-- Two parameters with one name in one location are one parameter. -/
def sameSlot (p q : Parameter) : Bool := p.name = q.name && p.location = q.location

/-! ### Declared by a path -/

/-- The parameter that a token of a path declares. -/
def ofSlot (s : Template.Slot) : Parameter where
  name := String.ofList s.name
  location := "path"
  required := true
  example? := if s.default = [] then none else some (.text (String.ofList s.default))

/-- The parameters of a path template. -/
def ofTemplate (template : String) : List Parameter :=
  (Template.slots template.toList).map ofSlot

/-! ### Declared by a shorthand -/

/-- The example that a default gives: the value of the type, or else the text. -/
def exampleOf (type : TypeName) (default : List Char) : Option Scalar :=
  if default = [] then none
  else
    match Default.read type default with
    | .ok v => some v
    | .error _ => some (.text (String.ofList default))

/-- The parameter that a shorthand declares; blanks do not count. -/
def ofShorthand (location text : String) : Parameter :=
  let parts := cut ':' (squeeze text.toList)
  let value := cut ':' parts.2
  let tag := Marker.split value.1
  let type := (TypeName.ofTag? tag.2).getD .string
  { name := String.ofList parts.1
    location
    required := Marker.requires tag.1
    type := type.name
    example? := exampleOf type value.2 }

/-! ### Declared by a definition -/

/-- A parameter whose fields are still to be checked. -/
structure Draft where
  name? : Option Data
  location? : Option Data
  required? : Option Data
  type : Data
  description : Data
  example? : Data
deriving Repr

/-- The parameter that a draft describes, its fields checked in their order. -/
def Draft.check (d : Draft) : Checked Parameter :=
  Parameter.mk <$> Checked.given "name" Checked.text d.name? <*>
    Checked.given "location" Checked.text d.location? <*>
    Checked.given "required" Checked.boolean d.required? <*>
    Checked.given "param_type" Checked.text d.type <*>
    Checked.given "description" Checked.text d.description <*>
    Checked.given "example" Checked.scalar d.example?

/-- The field of a mapping, or a value in its place. -/
def fieldOr (es : List (Data × Data)) (name : String) (default : Data) : Data :=
  (Data.field? es name).getD default

/-- A parameter with its own fields: name, location and required must be there. -/
def ofFields (es : List (Data × Data)) : Checked Parameter :=
  Draft.check
    { name? := Data.field? es "name"
      location? := Data.field? es "location"
      required? := Data.field? es "required"
      type := fieldOr es "param_type" (.text "string")
      description := fieldOr es "description" (.text "")
      example? := fieldOr es "example" .null }

/-- The draft that a definition gives: its location is the one asked for unless it names one,
and what its schema says goes first. -/
def Draft.ofDefinition (location : String) (es schema : List (Data × Data)) : Draft where
  name? := fieldOr es "name" .null
  location? := fieldOr es "in" (fieldOr es "location" (.text location))
  required? := fieldOr es "required" (.boolean false)
  type := fieldOr schema "type" (fieldOr es "param_type" (.text "string"))
  description := fieldOr es "description" (.text "")
  example? := fieldOr schema "example" (fieldOr es "example" .null)

/-- The parameter that a definition declares. -/
def ofDefinition (location : String) (es : List (Data × Data)) : Except Fault Parameter :=
  match fieldOr es "schema" (.map []) with
  | .map schema => Fault.ofChecked (Draft.ofDefinition location es schema).check
  | _ => .error .notParameterSchema

/-! ### Declared in a list -/

/-- The declarations that a value holds: the parts of a text between commas, the items of a
list, or the keys of a mapping; any other value is taken for a declaration itself. -/
def split : Data → List Data
  | .text s =>
    ((pieces ',' (squeeze s.toList)).filter (· ≠ [])).map fun p => .text (String.ofList p)
  | .list items => items
  | .map es => es.map Prod.fst
  | v => [v]

/-- The parameter that one declaration declares. -/
def ofDeclaration (location : String) : Data → Except Fault Parameter
  | .text s => .ok (ofShorthand location s)
  | .map es => ofDefinition location es
  | _ => .error .notParameter

/-- The parameters that a list of declarations declares, or the fault of the first bad one. -/
def ofDeclarations (location : String) : List Data → Except Fault (List Parameter)
  | [] => .ok []
  | d :: ds => do
    let p ← ofDeclaration location d
    let ps ← ofDeclarations location ds
    return p :: ps

/-- Declares a parameter: it goes to the end, and one that was declared before with the same
name and location is dropped. -/
def declare (declared : List Parameter) (p : Parameter) : List Parameter :=
  declared.filter (fun q => !q.sameSlot p) ++ [p]

end Parameter

end ApiOutline
