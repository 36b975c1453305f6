/-
ApiOutline/Proofs/DefinitionRoundTrip.lean

Reading back the parameters of a document.

Design.  A parameter is written with up to five fields, of which the description is left out if it
is empty and the example if there is none; a definition is read with a chain of other fields to
fall back on.  Both meet in the draft of a parameter: what is written gives the draft in which
every field has the value of the parameter (`Draft.of`), since a field that is left out is not
found under another name either, and values of the right kind pass their checks unchanged.

Main result: `ofDeclaration_written`.
-/
import ApiOutline.Route.Parameter

namespace ApiOutline

namespace Checked

theorem boolean_boolean (b : Bool) : boolean (.boolean b) = accepted b := by
  cases b <;> rfl

/-- A plain value passes its check as it is, zero, false and the empty text too. -/
theorem scalar_ofJson (v? : Option Scalar) :
    scalar (v?.elim .null fun v => Data.ofJson (Json.ofScalar v)) = accepted v? := by
  rcases v? with - | (s | n | x | b) <;> rfl

end Checked

namespace Parameter

/-- The draft with the values of a parameter. -/
def Draft.of (p : Parameter) : Draft where
  name? := some (.text p.name)
  location? := some (.text p.location)
  required? := some (.boolean p.required)
  type := .text p.type
  description := .text p.description
  example? := p.example?.elim .null fun v => Data.ofJson (Json.ofScalar v)

/-- Values of the right kinds are taken as they are. -/
theorem Draft.check_of (p : Parameter) : (Draft.of p).check = .accepted p := by
  have hrequired : Checked.given "required" Checked.boolean (Draft.of p).required? =
      .accepted p.required :=
    congrArg (Checked.inside (.name "required")) (Checked.boolean_boolean p.required)
  have hexample : Checked.given "example" Checked.scalar (some (Draft.of p).example?) =
      .accepted p.example? :=
    congrArg (Checked.inside (.name "example")) (Checked.scalar_ofJson p.example?)
  rw [check, hrequired, hexample]
  rfl

/-! ### Written parameters -/

section Written

variable (p : Parameter)

/-- The entries of the schema of a parameter that is written. -/
def schemaEntries : List (Data × Data) :=
  Data.ofFields (("type", .text p.type) :: Json.field? "example" (p.example?.map Json.ofScalar))

/-- The entries of a parameter that is written. -/
def entries : List (Data × Data) :=
  Data.ofFields ([("name", .text p.name), ("in", .text p.location),
    ("required", .boolean p.required), ("schema", p.schemaJson)] ++
      if p.description = "" then [] else [("description", .text p.description)])

theorem ofJson_toJson : Data.ofJson p.toJson = .map p.entries := rfl

theorem fieldOr_schema : fieldOr p.entries "schema" (.map []) = .map p.schemaEntries := rfl

/-- A description that is left out is read as the empty one. -/
theorem fieldOr_description : fieldOr p.entries "description" (.text "") = .text p.description := by
  rw [entries]
  split
  · rename_i hempty
    rw [hempty]
    rfl
  · rfl

/-- An example that is left out of the schema is not found beside it either. -/
theorem fieldOr_example : fieldOr p.schemaEntries "example" (fieldOr p.entries "example" .null) =
    p.example?.elim .null fun v => Data.ofJson (Json.ofScalar v) := by
  have hbeside : fieldOr p.entries "example" .null = .null := by
    rw [entries]
    split <;> rfl
  rw [hbeside, schemaEntries]
  cases p.example? <;> rfl

/-- Whatever location is asked for, what is written gives the draft with the values of the
parameter. -/
theorem Draft.ofDefinition_entries (location : String) :
    Draft.ofDefinition location p.entries p.schemaEntries = Draft.of p := by
  rw [ofDefinition, fieldOr_description, fieldOr_example]
  rfl

theorem ofDeclaration_entries (location : String) :
    ofDeclaration location (.map p.entries) = .ok p := by
  rw [ofDeclaration, ofDefinition, fieldOr_schema]
  dsimp only
  rw [Draft.ofDefinition_entries, Draft.check_of]
  rfl

end Written

/-- **Parameters are read back.**  What is written of a parameter declares that parameter, in all
its fields, whatever location is asked for.  So a definition that is accepted, of any form, may be
replaced by what is written of its parameter. -/
theorem ofDeclaration_written :
    (∀ (p : Parameter) (location : String),
      ofDeclaration location (Data.ofJson p.toJson) = .ok p) ∧
    ∀ (es : List (Data × Data)) (location location' : String),
      (ofDeclaration location (.map es) >>= fun p =>
        ofDeclaration location' (Data.ofJson p.toJson)) = ofDeclaration location (.map es) := by
  have hread : ∀ (p : Parameter) (location : String),
      ofDeclaration location (Data.ofJson p.toJson) = .ok p := by
    intro p location
    rw [ofJson_toJson, ofDeclaration_entries]
  refine ⟨hread, fun es location location' => ?_⟩
  rcases ofDeclaration location (.map es) with f | p
  · rfl
  · exact hread p location'

end Parameter

end ApiOutline
