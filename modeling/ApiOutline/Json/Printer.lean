/-
ApiOutline/Json/Printer.lean

Documents as JSON text.

Design.  Only the double quote, the backslash and the control characters below
U+0020 are escaped.  Floating-point numbers are written with the fewest digits
that identify them.  A `Style` says how much space there is: none, a space after
each mark, or a line for each item.
-/
import ApiOutline.Json.Basic
import ApiOutline.Number.Shortest
import ApiOutline.Text.Hex

namespace ApiOutline.Json

/-- How much space JSON text has. -/
inductive Style where
  /-- no space at all -/
  | compact
  /-- a space after commas and colons -/
  | spaced
  /-- a line for each item, two columns deeper at each level -/
  | indented
deriving DecidableEq, Repr

/-- One character of a string. -/
def escapedChar (c : Char) : List Char :=
  if c = '"' ∨ c = '\\' then ['\\', c]
  else if c = '\n' then ['\\', 'n']
  else if c = '\r' then ['\\', 'r']
  else if c = '\t' then ['\\', 't']
  else if c.toNat = 0x08 then ['\\', 'b']
  else if c.toNat = 0x0C then ['\\', 'f']
  else if c.toNat < 0x20 then '\\' :: 'u' :: Text.hex 4 c.toNat
  else [c]

/-- A string between double quotes. -/
def quote (s : String) : String :=
  "\"" ++ String.ofList (s.toList.flatMap escapedChar) ++ "\""

/-- The text of a floating-point number. -/
def floatText (x : Binary64) : String :=
  String.ofList (x.text "Infinity".toList "NaN".toList)

namespace Style

/-- What stands between an opening bracket and the first item, and before a closing bracket at a
given depth. -/
def gap (style : Style) (depth : Nat) : String :=
  match style with
  | indented => "\n" ++ "".pushn ' ' (2 * depth)
  | _ => ""

/-- What stands between two items at a given depth. -/
def comma (style : Style) (depth : Nat) : String :=
  match style with
  | compact => ","
  | spaced => ", "
  | indented => "," ++ style.gap depth

/-- What stands between a name and its value. -/
def colon (style : Style) : String :=
  match style with
  | compact => ":"
  | _ => ": "

/-- Items between brackets, the items standing at the given depth. -/
def enclose (style : Style) (depth : Nat) (opening closing : String) (items : List String) :
    String :=
  if items.isEmpty then opening ++ closing
  else
    opening ++ style.gap depth ++ (style.comma depth).intercalate items ++
      style.gap (depth - 1) ++ closing

end Style

mutual

/-- The text of a value that stands at the given depth. -/
def print (style : Style) (depth : Nat) : Json → String
  | null => "null"
  | boolean b => if b then "true" else "false"
  | integer n => toString n
  | float x => floatText x
  | text s => quote s
  | array items => style.enclose (depth + 1) "[" "]" (printItems style (depth + 1) items)
  | object fields =>
    style.enclose (depth + 1) "\x7b" "\x7d" (printFields style (depth + 1) fields)

/-- The texts of the items of an array. -/
def printItems (style : Style) (depth : Nat) : List Json → List String
  | [] => []
  | v :: vs => print style depth v :: printItems style depth vs

/-- The texts of the fields of an object. -/
def printFields (style : Style) (depth : Nat) : List (String × Json) → List String
  | [] => []
  | (k, v) :: fs =>
    (quote k ++ style.colon ++ print style depth v) :: printFields style depth fs

end

/-- The value as JSON text. -/
def render (style : Style) (v : Json) : String := print style 0 v

/-- The value as JSON text, unless a whole number in it is too long. -/
def render? (style : Style) (v : Json) : Option String :=
  if v.isWritable then some (v.render style) else none

end ApiOutline.Json
