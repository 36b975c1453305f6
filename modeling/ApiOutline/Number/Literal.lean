/-
ApiOutline/Number/Literal.lean

Numbers as they are written.

Design.  A literal is first brought to ASCII: decimal digits of any script
become the ten ASCII ones, blanks beyond ASCII become spaces.  Blanks around it
are dropped, and single underscores between digits are dropped too.  What is
left is a whole number (`readInteger?`), or a decimal with point and exponent,
or one of the words `inf`, `infinity` and `nan` (`Real.read?`).  A whole number
of more than 4300 decimal digits is neither read nor written; in the bases 2, 8
and 16 (`readWhole`) the digits are not counted.
-/
import ApiOutline.Number.Binary64
import ApiOutline.Text.Blank
import ApiOutline.Text.DecimalDigit
import ApiOutline.Text.Hex

namespace ApiOutline.Literal

open Text

/-! ### Preparing the text -/

/-- The ASCII character that stands for a character in a literal; what has none is left, and no
literal holds it. -/
def plainChar (c : Char) : Char :=
  if c.toNat < 0x7F then c
  else if isBlank c then ' '
  else
    match decimalDigit? c with
    | some d => asciiDigit d
    | none => c

/-- Tab, line feed, vertical tab, form feed, carriage return or space. -/
def isPadding (c : Char) : Bool := c.toNat = 0x20 || (0x09 ≤ c.toNat && c.toNat ≤ 0x0D)

/-- The text without the padding around it. -/
def trim (cs : List Char) : List Char :=
  ((cs.dropWhile isPadding).reverse.dropWhile isPadding).reverse

/-- Drops the underscores, each of which must stand between two digits; `afterDigit` says
whether a digit stands in front. -/
def joinDigits? (afterDigit : Bool) : List Char → Option (List Char)
  | [] => some []
  | '_' :: c :: cs =>
    if afterDigit && c.isDigit then (joinDigits? true cs).map (c :: ·) else none
  | ['_'] => none
  | c :: cs => (joinDigits? c.isDigit cs).map (c :: ·)

/-- The literal in ASCII, without padding and underscores. -/
def prepare? (cs : List Char) : Option (List Char) := joinDigits? false (trim (cs.map plainChar))

/-- A sign, and the text after it; without a sign the text is positive. -/
def signed : List Char → Bool × List Char
  | '-' :: cs => (true, cs)
  | '+' :: cs => (false, cs)
  | cs => (false, cs)

/-- The value of a string of ASCII digits. -/
def digitsValue (cs : List Char) : Nat := Nat.ofDigitChars 10 cs 0

/-! ### Whole numbers -/

/-- The most decimal digits a whole number may have. -/
def maxDigits : Nat := 4300

/-- The whole number has few enough digits to be written. -/
def isWritable (n : Int) : Bool := n.natAbs < Nat.pow 10 maxDigits

/-- The message about a whole number with too many digits; their number is given if it is
known. -/
def limitMessage (count? : Option Nat) : String :=
  "Exceeds the limit (" ++ toString maxDigits ++ " digits) for integer string conversion" ++
    (match count? with
      | some count => ": value has " ++ toString count ++ " digits"
      | none => "") ++
    "; use sys.set_int_max_str_digits() to increase the limit"

/-- A number with the sign given. -/
def withSign (negative : Bool) (n : Nat) : Int := if negative then -(n : Int) else n

/-- The whole number that a text writes. -/
def readInteger? (cs : List Char) : Option Int := do
  let (negative, ds) := signed (← prepare? cs)
  if ds ≠ [] ∧ ds.all Char.isDigit ∧ ds.length ≤ maxDigits then
    some (withSign negative (digitsValue ds))
  else none

/-! ### Whole numbers in a base -/

/-- Why a text writes no whole number. -/
inductive WholeFault where
  | notWhole
  | tooManyDigits (count : Nat)
deriving DecidableEq, Repr

/-- The letter that marks a base after a zero. -/
def baseLetter? : Nat → Option Char
  | 2 => some 'b'
  | 8 => some 'o'
  | 16 => some 'x'
  | _ => none

/-- The digits without the mark of their base. -/
def withoutBaseMark (base : Nat) : List Char → List Char
  | '0' :: c :: cs => if baseLetter? base = some c.toLower then cs else '0' :: c :: cs
  | cs => cs

/-- The character is a digit in a base. -/
def isDigitIn (base : Nat) (c : Char) : Bool := (hexValue? c).any (· < base)

/-- The value of digits in a base. -/
def valueIn (base : Nat) (ds : List Char) : Nat :=
  ds.foldl (fun n c => base * n + (hexValue? c).getD 0) 0

/-- The whole number that a text without underscores writes in a base of at most sixteen; the
mark of the base may stand in front.  Too many digits are a fault of their own, whatever
follows them. -/
def readWhole (base : Nat) (cs : List Char) : Except WholeFault Int :=
  let (negative, body) := signed (trim (cs.map plainChar))
  let body := withoutBaseMark base body
  let ds := body.takeWhile (isDigitIn base)
  if base = 10 ∧ maxDigits < ds.length then .error (.tooManyDigits ds.length)
  else if ds = [] ∨ ds.length < body.length then .error .notWhole
  else .ok (withSign negative (valueIn base ds))

/-! ### Real numbers -/

/-- What a real literal says: a decimal `± digits · 10 ^ exponent`, or a word. -/
inductive Real where
  | nan
  | infinity (negative : Bool)
  | decimal (negative : Bool) (digits : Nat) (exponent : Int)
deriving DecidableEq, Repr

/-- The exponent at the end of a decimal: nothing, or `e`, a sign and digits. -/
def readExponent? : List Char → Option Int
  | [] => some 0
  | c :: cs =>
    if c = 'e' ∨ c = 'E' then
      let (negative, ds) := signed cs
      if ds ≠ [] ∧ ds.all Char.isDigit then some (withSign negative (digitsValue ds)) else none
    else none

/-- The digits before the point, those after it, and what follows them. -/
def splitPoint (cs : List Char) : List Char × List Char × List Char :=
  let (whole, rest) := cs.span Char.isDigit
  match rest with
  | '.' :: rest =>
    let (fraction, rest) := rest.span Char.isDigit
    (whole, fraction, rest)
  | rest => (whole, [], rest)

/-- The decimal that a text without sign writes. -/
def readDecimal? (negative : Bool) (cs : List Char) : Option Real := do
  let (whole, fraction, rest) := splitPoint cs
  if whole = [] ∧ fraction = [] then none
  else
    let exponent ← readExponent? rest
    some (.decimal negative (digitsValue (whole ++ fraction)) (exponent - fraction.length))

/-- The real literal that a text writes. -/
def Real.read? (cs : List Char) : Option Real := do
  let (negative, body) := signed (← prepare? cs)
  let word := body.map Char.toLower
  if word = ['n', 'a', 'n'] then some .nan
  else if word = ['i', 'n', 'f'] ∨ word = ['i', 'n', 'f', 'i', 'n', 'i', 't', 'y'] then
    some (.infinity negative)
  else readDecimal? negative body

/-- The floating-point number nearest to what a real literal says. -/
def Real.toBinary64 : Real → Binary64
  | .nan => .nan
  | .infinity negative => .infinity negative
  | .decimal negative digits exponent => .ofDecimal negative digits exponent

/-- The floating-point number that a text writes. -/
def readBinary64? (cs : List Char) : Option Binary64 := (Real.read? cs).map Real.toBinary64

end ApiOutline.Literal
