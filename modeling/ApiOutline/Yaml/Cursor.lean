/-
ApiOutline/Yaml/Cursor.lean

A place in a YAML text, and the classes of characters that its rules speak of.

Design.  A cursor holds the text that is left and counts characters, lines and
columns on the way.  The end of the text counts as a blank.  A byte-order mark
takes no column.
-/

namespace ApiOutline.Yaml

/-! ### Characters -/

/-- The character ends a line. -/
def isBreak (c : Char) : Bool :=
  c = '\n' || c = '\r' || c.toNat = 0x85 || c.toNat = 0x2028 || c.toNat = 0x2029

/-- A space, a tab or the end of a line. -/
def isBlank (c : Char) : Bool := c = ' ' || c = '\t' || isBreak c

/-- The character may stand in a text at all. -/
def isAllowed (c : Char) : Bool :=
  let n := c.toNat
  n = 0x09 || n = 0x0A || n = 0x0D || (0x20 ≤ n && n ≤ 0x7E) || n = 0x85 ||
    (0xA0 ≤ n && n ≤ 0xD7FF) || (0xE000 ≤ n && n ≤ 0xFFFD) || 0x10000 ≤ n

/-- A letter, a digit, a hyphen or an underscore. -/
def isWord (c : Char) : Bool := c.isAlphanum || c = '-' || c = '_'

/-- A bracket or comma of a flow collection. -/
def isFlowMark (c : Char) : Bool := c = ',' || c = '[' || c = ']' || c = '\x7b' || c = '\x7d'

/-- The condition, which the end of the text meets too. -/
def orEnd (p : Char → Bool) : Option Char → Bool
  | none => true
  | some c => p c

/-! ### Cursors -/

/-- A place in a text. -/
structure Cursor where
  rest : List Char
  index : Nat := 0
  line : Nat := 0
  column : Nat := 0
deriving Repr

namespace Cursor

/-- The next character. -/
def peek (c : Cursor) : Option Char := c.rest.head?

/-- The character after `n` others. -/
def peekAt (c : Cursor) (n : Nat) : Option Char := c.rest[n]?

/-- The next character is the given one. -/
def sees (c : Cursor) (d : Char) : Bool := c.peek = some d

/-- The place after the next character. -/
def next (c : Cursor) : Cursor :=
  match c.rest with
  | [] => c
  | d :: ds =>
    if isBreak d && !(d = '\r' && ds.head? = some '\n') then
      { rest := ds, index := c.index + 1, line := c.line + 1, column := 0 }
    else
      { c with
        rest := ds
        index := c.index + 1
        column := if d.toNat = 0xFEFF then c.column else c.column + 1 }

/-- The place after `n` characters. -/
def skip : Nat → Cursor → Cursor
  | 0, c => c
  | n + 1, c => skip n c.next

/-- The characters from here on that meet the condition. -/
def run (c : Cursor) (p : Char → Bool) : List Char := c.rest.takeWhile p

/-- The place after the characters that meet the condition. -/
def skipWhile (c : Cursor) (p : Char → Bool) : Cursor := c.skip (c.run p).length

/-- How many blanks stand here. -/
def blanks (c : Cursor) : Nat := (c.run isBlank).length

/-- Takes one line break: all its forms but two count as a line feed. -/
def lineBreak? (c : Cursor) : Option (Char × Cursor) :=
  match c.rest with
  | '\r' :: '\n' :: _ => some ('\n', c.skip 2)
  | d :: _ =>
    if isBreak d then
      some (if d.toNat = 0x2028 ∨ d.toNat = 0x2029 then d else '\n', c.next)
    else none
  | [] => none

/-- The place after one line break, if there is one here. -/
def skipBreak (c : Cursor) : Cursor :=
  match c.lineBreak? with
  | some (_, c) => c
  | none => c

/-- Three hyphens or three dots stand here, and a blank after them. -/
def atMarker (c : Cursor) (mark : Char) : Bool :=
  c.rest.take 3 = [mark, mark, mark] && orEnd isBlank (c.peekAt 3)

/-- A document marker stands here. -/
def atAnyMarker (c : Cursor) : Bool := c.atMarker '-' || c.atMarker '.'

end Cursor

end ApiOutline.Yaml
