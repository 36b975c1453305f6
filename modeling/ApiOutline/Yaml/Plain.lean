/-
ApiOutline/Yaml/Plain.lean

The forms of plain scalars.

Design.  What a plain scalar is shows in its form alone: certain words are
booleans or null, and there are forms for whole numbers (also binary, octal,
hexadecimal and in base 60), for floating-point numbers, and for
dates.  Anything else is text.  `tagOf` says which form a text has.
-/
import ApiOutline.Number.Literal
import ApiOutline.Text.Cut
import ApiOutline.Text.Hex
import ApiOutline.Timestamp
import ApiOutline.Yaml.Tag

namespace ApiOutline.Yaml.Plain

/-! ### Words and numbers -/

/-- A word in small letters, with a capital, or in capitals. -/
def isWordOf (words : List String) (cs : List Char) : Bool :=
  words.any fun w =>
    let small := w.toList
    let capitals := small.map Char.toUpper
    cs = small || cs = capitals || cs = capitals.take 1 ++ small.drop 1

/-- The words for true. -/
def trueWords : List String := ["yes", "true", "on"]

/-- The words for false. -/
def falseWords : List String := ["no", "false", "off"]

/-- The text without the sign in front of it. -/
def unsigned (cs : List Char) : List Char := (Literal.signed cs).2

/-- The words for a value that is no number. -/
def nanWords : List String := ["nan", "NaN", "NAN"]

/-- A text that is not empty, and only of such characters. -/
def isRun (p : Char → Bool) (cs : List Char) : Bool := cs ≠ [] && cs.all p

/-- A digit or an underscore. -/
def isSpacedDigit (c : Char) : Bool := c.isDigit || c = '_'

/-- A hexadecimal digit or an underscore. -/
def isSpacedHex (c : Char) : Bool := (Text.hexValue? c).isSome || c = '_'

/-- A digit that is first in its number, and digits and underscores after it. -/
def isNumeral (first : Char → Bool) : List Char → Bool
  | [] => false
  | c :: cs => first c && cs.all isSpacedDigit

/-- A digit other than zero. -/
def isPositiveDigit (c : Char) : Bool := c.isDigit && c ≠ '0'

/-- A place of a number in base 60 after the first. -/
def isSixtieth : List Char → Bool
  | [a] => a.isDigit
  | [a, b] => '0' ≤ a && a ≤ '5' && b.isDigit
  | _ => false

/-- A whole number. -/
def isInteger (cs : List Char) : Bool :=
  match unsigned cs with
  | ['0'] => true
  | '0' :: 'b' :: ds => isRun (fun c => c = '0' || c = '1' || c = '_') ds
  | '0' :: 'x' :: ds => isRun isSpacedHex ds
  | '0' :: ds => isRun (fun c => ('0' ≤ c && c ≤ '7') || c = '_') ds
  | ds =>
    match Text.pieces ':' ds with
    | first :: rest => isNumeral isPositiveDigit first && rest.all isSixtieth
    | [] => false

/-- The exponent at the end of a floating-point number: its sign must be there. -/
def isExponent : List Char → Bool
  | [] => true
  | c :: s :: ds => (c = 'e' || c = 'E') && (s = '-' || s = '+') && isRun Char.isDigit ds
  | _ => false

/-- The digits after a point, and an exponent. -/
def isFraction (cs : List Char) : Bool := isExponent (cs.dropWhile isSpacedDigit)

/-- A number in base 60 with a point. -/
def isSixtiethFloat (whole : List Char) (fraction : List Char) : Bool :=
  match Text.pieces ':' whole with
  | first :: place :: places =>
    isNumeral Char.isDigit first && (place :: places).all isSixtieth && fraction.all isSpacedDigit
  | _ => false

/-- A floating-point number. -/
def isFloat (cs : List Char) : Bool :=
  let body := unsigned cs
  let parts := Text.cut '.' body
  if parts.1 = [] then
    isWordOf ["inf"] parts.2 && body.head? = some '.' ||
      cs.head? = some '.' &&
        (nanWords.any (fun w => w.toList = parts.2) ||
          (parts.2.head?.any Char.isDigit && isFraction parts.2))
  else
    body.contains '.' &&
      (isNumeral Char.isDigit parts.1 && isFraction parts.2 || isSixtiethFloat parts.1 parts.2)

/-! ### Dates -/

/-- The value of `least` to `most` digits at the start of a text, and what follows. -/
def digits? (least most : Nat) (cs : List Char) : Option (Nat × List Char) :=
  let ds := (cs.take most).takeWhile Char.isDigit
  if least ≤ ds.length then some (Literal.digitsValue ds, cs.drop ds.length) else none

/-- What follows a character that must be there. -/
def after? (c : Char) : List Char → Option (List Char)
  | d :: cs => if d = c then some cs else none
  | [] => none

/-- A space or a tab. -/
def isSpace (c : Char) : Bool := c = ' ' || c = '\t'

/-- A distance from universal time in minutes: hours, and perhaps minutes. -/
def offset? (cs : List Char) : Option Nat := do
  let (hours, cs) ← digits? 1 2 cs
  if cs = [] then return 60 * hours
  else
    let (minutes, cs) ← digits? 2 2 (← after? ':' cs)
    if cs = [] then return 60 * hours + minutes else none

/-- A time zone. -/
def zone? : List Char → Option Int
  | ['Z'] => some 0
  | '+' :: cs => (offset? cs).map fun n => n
  | '-' :: cs => (offset? cs).map fun n => -n
  | _ => none

/-- The time of day that a text gives. -/
def time? (cs : List Char) : Option TimeOfDay := do
  let (hour, cs) ← digits? 1 2 cs
  let (minute, cs) ← digits? 2 2 (← after? ':' cs)
  let (second, cs) ← digits? 2 2 (← after? ':' cs)
  let (fraction, cs) := match cs with
    | '.' :: cs => (cs.takeWhile Char.isDigit, cs.dropWhile Char.isDigit)
    | cs => ([], cs)
  let micro := Literal.digitsValue ((fraction ++ List.replicate 6 '0').take 6)
  if cs = [] then return { hour, minute, second, micro }
  else return { hour, minute, second, micro, zone? := some (← zone? (cs.dropWhile isSpace)) }

/-- The text without a line feed at its end. -/
def withoutLineEnd (cs : List Char) : List Char :=
  if cs.getLast? = some '\n' then cs.dropLast else cs

/-- The timestamp that a text writes: a day, or a day and a time. -/
def timestamp? (cs : List Char) : Option Timestamp := do
  let (year, rest) ← digits? 4 4 (withoutLineEnd cs)
  let (month, rest) ← digits? 1 2 (← after? '-' rest)
  let (day, rest) ← digits? 1 2 (← after? '-' rest)
  match rest with
  | [] => return { year, month, day }
  | c :: cs =>
    if c = 'T' || c = 't' then return { year, month, day, time? := some (← time? cs) }
    else if isSpace c then
      return { year, month, day, time? := some (← time? (cs.dropWhile isSpace)) }
    else none

/-- The form of a timestamp: a day alone has two digits for the month and for the day. -/
def isTimestamp (cs : List Char) : Bool :=
  (timestamp? cs).any fun t => t.time?.isSome || (withoutLineEnd cs).length = 10

/-! ### All forms -/

/-- The tag of a plain scalar.  A line feed at its end does not count. -/
def tagOf (text : List Char) : Tag :=
  let cs := withoutLineEnd text
  if text = ['\n'] then .text
  else if isWordOf (trueWords ++ falseWords) cs then .boolean
  else if isFloat cs then .float
  else if isInteger cs then .integer
  else if cs = ['<', '<'] then .merge
  else if cs = [] || cs = ['~'] || isWordOf ["null"] cs then .null
  else if isTimestamp text then .timestamp
  else if cs = ['='] then .value
  else if cs = ['!'] || cs = ['&'] || cs = ['*'] then .unknown
  else .text

end ApiOutline.Yaml.Plain
