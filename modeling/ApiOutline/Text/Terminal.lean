/-
ApiOutline/Text/Terminal.lean

Text without the codes that control a terminal.

Design.  A code is an escape character and a bracket, then parameters, then
intermediate characters, and one final character; the three classes are ranges
of ASCII that do not meet, so that the end of a code is never in doubt.
-/

namespace ApiOutline.Text

/-- The character is a parameter of a code: U+0030 to U+003F. -/
def isCodeParameter (c : Char) : Bool := '0' ≤ c && c ≤ '?'

/-- The character stands between the parameters of a code and its end: U+0020 to U+002F. -/
def isCodeIntermediate (c : Char) : Bool := ' ' ≤ c && c ≤ '/'

/-- The character ends a code: U+0040 to U+007E. -/
def isCodeFinal (c : Char) : Bool := '@' ≤ c && c ≤ '~'

/-- The length of the code that follows an escape character, if one does. -/
def codeLength? : List Char → Option Nat
  | '[' :: cs =>
    let parameters := cs.takeWhile isCodeParameter
    let after := cs.drop parameters.length
    let between := after.takeWhile isCodeIntermediate
    if (after.drop between.length).head?.any isCodeFinal then
      some (parameters.length + between.length + 2)
    else none
  | _ => none

/-- The text without codes, the next `skip` characters belonging to one. -/
def withoutCodesFrom : Nat → List Char → List Char
  | _, [] => []
  | skip + 1, _ :: cs => withoutCodesFrom skip cs
  | 0, c :: cs =>
    if c.toNat = 0x1B then
      match codeLength? cs with
      | some n => withoutCodesFrom n cs
      | none => c :: withoutCodesFrom 0 cs
    else c :: withoutCodesFrom 0 cs

/-- The text without codes. -/
def withoutCodes (s : String) : String := String.ofList (withoutCodesFrom 0 s.toList)

end ApiOutline.Text
