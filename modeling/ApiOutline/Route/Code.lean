/-
ApiOutline/Route/Code.lean

The codes under which responses stand.

Design.  A code is a text or a whole number, and is written as text: then the
number 200 and the text `200` are one code, but in a mapping of responses they
are two keys.
-/
import ApiOutline.Checked
import ApiOutline.Text.Cut

namespace ApiOutline

/-- The code of a response. -/
inductive Code where
  | text (value : String)
  | integer (value : Int)
deriving DecidableEq, Repr, Inhabited

namespace Code

/-- The code as it is written; a number can have too many digits for that. -/
def written? : Code → Option String
  | text s => some s
  | integer n => if Literal.isWritable n then some (toString n) else none

/-! ### Codes from values -/

/-- The character is white space. -/
def isSpace (c : Char) : Bool := Text.isBlank c && !(0x1C ≤ c.toNat && c.toNat ≤ 0x1F)

/-- The text without the white space around it. -/
def trim (cs : List Char) : List Char :=
  ((cs.dropWhile isSpace).reverse.dropWhile isSpace).reverse

/-- The number that digits write; there may be underscores between them, and zeros after a
point. -/
def digitsNumber? (cs : List Char) : Option Nat := do
  let (whole, fraction) := Text.cut '.' cs
  let ds ← Literal.joinDigits? false whole
  if ds ≠ [] ∧ ds.all Char.isDigit ∧ ds.length ≤ Literal.maxDigits ∧ fraction.all (· = '0') then
    some (Literal.digitsValue ds)
  else none

/-- The whole number that a word writes: a negative one has nothing but its digits, the first of
them not a zero, while others may have a plus sign, zeros in front and space around. -/
def number? (cs : List Char) : Option Int :=
  match cs with
  | '-' :: ds =>
    if ds.all Char.isDigit ∧ (ds = ['0'] ∨ ds.head? ≠ some '0') then
      (digitsNumber? ds).map fun n => -n
    else none
  | cs =>
    match trim cs with
    | '+' :: ds => (digitsNumber? ds).map fun n => n
    | ds => (digitsNumber? ds).map fun n => n

/-- The code that a key gives: a text, or a whole number, which bytes can write.  A
floating-point number counts as a whole number only if it lies strictly between the bounds of a
word. -/
def check : Data → Checked Code
  | .text s => .accepted (text s)
  | .bytes bs =>
    match (Data.bytes bs).text? with
    | some s => .accepted (((number? s.toList).map integer).getD (text s))
    | none => .refuse
  | .float x =>
    match x.toInt? with
    | some n => if n.natAbs < 0x8000000000000000 then .accepted (integer n) else .refuse
    | none => .refuse
  | v => Checked.ofOption (v.keyInteger?.map integer)

end Code

end ApiOutline
