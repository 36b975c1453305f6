/-
ApiOutline/Shape/Default.lean

Default literals, read at the type they stand for.

Design.  For a number the literal is read as a whole number if it is one,
otherwise as a floating-point number, which for the type integer must be
whole.  The words `true` and `1` are the true booleans and all others
false.  Every other type keeps the text.
-/
import ApiOutline.Number.Literal
import ApiOutline.Scalar
import ApiOutline.Shape.TypeName
import ApiOutline.Text.Quoted

namespace ApiOutline

/-- Why a literal is no default of its type. -/
inductive LiteralFault where
  /-- the literal writes no number -/
  | notNumeric (literal : String)
  /-- the number is infinite or not whole -/
  | notInteger (literal : String)
  /-- the number is infinite or not a number -/
  | notFinite (literal : String)
deriving DecidableEq, Repr

namespace LiteralFault

/-- The text of a fault. -/
def message : LiteralFault → String
  | notNumeric s =>
    "could not convert string to float: " ++ String.ofList (Text.quoted s.toList)
  | notInteger s => "not an integer: " ++ s
  | notFinite s => "not a finite number: " ++ s

end LiteralFault

namespace Default

open Literal

/-- A default of the type integer. -/
def readInteger (literal : List Char) : Except LiteralFault Scalar :=
  match readInteger? literal with
  | some n => .ok (.integer n)
  | none =>
    match readBinary64? literal with
    | none => .error (.notNumeric (String.ofList literal))
    | some x =>
      match x.toInt? with
      | some n => .ok (.integer n)
      | none => .error (.notInteger (String.ofList literal))

/-- A default of the type number. -/
def readNumber (literal : List Char) : Except LiteralFault Scalar :=
  match readInteger? literal with
  | some n => .ok (.integer n)
  | none =>
    match readBinary64? literal with
    | none => .error (.notNumeric (String.ofList literal))
    | some x =>
      if x.isFinite then .ok (.float x) else .error (.notFinite (String.ofList literal))

/-- A default of the type boolean. -/
def readBoolean (literal : List Char) : Bool := literal = ['t', 'r', 'u', 'e'] ∨ literal = ['1']

/-- A default of the given type. -/
def read (type : TypeName) (literal : List Char) : Except LiteralFault Scalar :=
  match type with
  | .integer => readInteger literal
  | .number => readNumber literal
  | .boolean => .ok (.boolean (readBoolean literal))
  | _ => .ok (.text (String.ofList literal))

/-- A default of the type with the given full name; a name that no type has keeps the text. -/
def readNamed (typeName literal : String) : Except LiteralFault Scalar :=
  match TypeName.named? typeName.toList with
  | some t => read t literal.toList
  | none => .ok (.text literal)

end Default

end ApiOutline
