/-
ApiOutline/Shape/Fault.lean

What can be wrong with an outline.
-/
import ApiOutline.Shape.Default

namespace ApiOutline.Shape

/-- The first thing that is wrong with an outline. -/
inductive Defect where
  /-- some bracket has no partner; the text is what is left of the outline -/
  | unbalanced (text : String)
  /-- a default mentions a block -/
  | blockInDefault (default : String)
  /-- an array has an empty item beside others -/
  | emptyItem (body : String)
  /-- a property has no name -/
  | missingName (pair : String)
  /-- a property name mentions a block -/
  | blockInName (name : String)
  /-- a placeholder stands for no block -/
  | unknownPlaceholder (token : String)
  /-- a block and other text stand together -/
  | blockInTag (tag : String)
  /-- a default is no value of its type -/
  | literal (fault : LiteralFault)
deriving DecidableEq, Repr

/-- The text of a defect. -/
def Defect.message : Defect → String
  | unbalanced s => "unbalanced braces or brackets in " ++ shown s
  | blockInDefault s => "nested block in default " ++ shown s
  | emptyItem s => "empty array item in " ++ shown s
  | missingName s => "missing property name in " ++ shown s
  | blockInName s => "nested block in property name " ++ shown s
  | unknownPlaceholder s => "unknown placeholder " ++ s
  | blockInTag s => "nested block mixed with text in " ++ shown s
  | literal f => f.message
where
  /-- The text between quotes. -/
  shown (s : String) : String := String.ofList (Text.quoted s.toList)

/-- Why resolving an outline stops. -/
inductive Stop where
  | defect (defect : Defect)
  /-- a block stands, at some depth, inside itself -/
  | selfReference
deriving DecidableEq, Repr

/-- Why an outline does not compile: it is malformed, its text without blanks being `source`, or
a block refers to itself. -/
inductive Fault where
  | malformed (source : String) (cause : Defect)
  | selfReference
deriving DecidableEq, Repr

/-- The text of a fault. -/
def Fault.message : Fault → String
  | malformed source _ => "Malformed schema: " ++ source
  | selfReference => "self-referring block"

end ApiOutline.Shape
