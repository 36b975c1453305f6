/-
ApiOutline/Yaml/Writer.lean

Documents as YAML text in block style.

Design.  A collection is written from a column on, its first line being begun
already.  A mapping inside a mapping starts on a new line, two columns deeper; a
sequence inside a mapping starts on a new line as well, but not deeper.  After a
hyphen, and after the colon of a key that has a line of its own, a collection
goes on in the same line.  Empty collections are written in brackets.
-/
import ApiOutline.Json.Basic
import ApiOutline.Number.Shortest
import ApiOutline.Yaml.ScalarStyle

namespace ApiOutline.Yaml

open ScalarStyle (newLine)

/-- The text of a floating-point number: an exponent never follows a whole number directly. -/
def floatText (x : Binary64) : List Char :=
  let cs := x.text ".inf".toList ".nan".toList
  if cs.contains 'e' && !cs.contains '.' then
    (Text.cut 'e' cs).1 ++ ".0e".toList ++ (Text.cut 'e' cs).2
  else cs

/-- The longest key that can stand in front of its colon. -/
def maxKeyLength : Nat := 122

/-- The key can stand in front of its colon: it has one line and is neither empty nor too long. -/
def isSimpleKey (key : List Char) : Bool :=
  key ≠ [] && !ScalarStyle.isMultiline key && key.length ≤ maxKeyLength

/-- A value that needs no lines of its own, written from a column on. -/
def leaf (indent column : Nat) : Json → List Char
  | .null => "null".toList
  | .boolean b => (if b then "true" else "false").toList
  | .integer n => (toString n).toList
  | .float x => floatText x
  | .text s => ScalarStyle.write true indent column s.toList
  | .array _ => ['[', ']']
  | .object _ => ['\x7b', '\x7d']

/-- A field of a mapping at the column `indent`; `body` writes its value from a column on. -/
def field (indent : Nat) (key : String) (v : Json) (body : Nat → List Char) : List Char :=
  if isSimpleKey key.toList then
    let name := ScalarStyle.write false indent indent key.toList
    name ++ ':' ::
      match v with
      | .array (_ :: _) => newLine indent ++ body indent
      | .object (_ :: _) => newLine (indent + 2) ++ body (indent + 2)
      | v => ' ' :: leaf (indent + 2) (indent + name.length + 2) v
  else
    '?' :: ' ' :: (ScalarStyle.write true (indent + 2) (indent + 2) key.toList ++
      newLine indent ++ ':' :: ' ' :: body (indent + 2))

mutual

/-- A value, written from a column on. -/
def block (indent : Nat) : Json → List Char
  | .array (v :: vs) => '-' :: ' ' :: (block (indent + 2) v ++ items indent vs)
  | .object ((k, v) :: fs) => field indent k v (fun i => block i v) ++ fields indent fs
  | .array [] => leaf indent indent (.array [])
  | .object [] => leaf indent indent (.object [])
  | .null => leaf indent indent .null
  | .boolean b => leaf indent indent (.boolean b)
  | .integer n => leaf indent indent (.integer n)
  | .float x => leaf indent indent (.float x)
  | .text s => leaf indent indent (.text s)

/-- The items of a sequence after the first one. -/
def items (indent : Nat) : List Json → List Char
  | [] => []
  | v :: vs => newLine indent ++ '-' :: ' ' :: (block (indent + 2) v ++ items indent vs)

/-- The fields of a mapping after the first one. -/
def fields (indent : Nat) : List (String × Json) → List Char
  | [] => []
  | (k, v) :: fs => newLine indent ++ field indent k v (fun i => block i v) ++ fields indent fs

end

/-- The value as YAML text. -/
def render (v : Json) : String := String.ofList (block 0 v ++ ['\n'])

/-- The value as YAML text, unless a whole number in it is too long. -/
def render? (v : Json) : Option String := if v.isWritable then some (render v) else none

end ApiOutline.Yaml
