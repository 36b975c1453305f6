/-
ApiOutline/Yaml/ScalarStyle.lean

How a text is written as a YAML scalar.

Design.  A text is written plain if it reads back as the same text that way;
otherwise between apostrophes if it has no character that needs an escape;
otherwise between double quotes.  A scalar that may be folded is broken at a
space once it is wider than `width`; the next line is indented.
-/
import ApiOutline.Text.Hex
import ApiOutline.Yaml.Cursor
import ApiOutline.Yaml.Plain

namespace ApiOutline.Yaml

/-! ### Which style -/

/-- The style of a scalar. -/
inductive ScalarStyle where
  | plain
  | single
  | double
deriving DecidableEq, Repr

namespace ScalarStyle

/-- The character ends a line of a written scalar. -/
def endsLine (c : Char) : Bool :=
  c = '\n' || c.toNat = 0x85 || c.toNat = 0x2028 || c.toNat = 0x2029

/-- The character can only be written by an escape. -/
def needsEscape (c : Char) : Bool :=
  let n := c.toNat
  !(c = '\n' || (0x20 ≤ n && n ≤ 0x7E) ||
    ((n = 0x85 || (0xA0 ≤ n && n ≤ 0xFFFD) || (0x10000 ≤ n && n < 0x10FFFF)) && n ≠ 0xFEFF))

/-- Two characters that meet the conditions stand side by side. -/
def adjacent (p q : Char → Bool) : List Char → Bool
  | c :: d :: cs => (p c && q d) || adjacent p q (d :: cs)
  | _ => false

/-- A character that meets the condition stands before a blank or at the end. -/
def beforeBlank (p : Char → Bool) (cs : List Char) : Bool :=
  cs.getLast?.any p || adjacent p isBlank cs

/-- The first character would be read as a mark. -/
def startsAsMark : List Char → Bool
  | [] => false
  | c :: cs =>
    "#,[]\x7b\x7d&*!|>'\"%@\u0060".toList.contains c ||
      ((c = '?' || c = ':' || c = '-') && orEnd isBlank cs.head?)

/-- Some part of the text would be read as a mark. -/
def hasMark (cs : List Char) : Bool :=
  cs.take 3 = ['-', '-', '-'] || cs.take 3 = ['.', '.', '.'] || startsAsMark cs ||
    beforeBlank (· = ':') (cs.drop 1) || adjacent isBlank (· = '#') cs

/-- A space or a line end stands at one of the ends. -/
def isPadded (cs : List Char) : Bool :=
  let outer (c : Char) := c = ' ' || endsLine c
  cs.head?.any outer || cs.getLast?.any outer

/-- The text has more than one line. -/
def isMultiline (cs : List Char) : Bool := cs.any endsLine

/-- The text can be written plain. -/
def allowsPlain (cs : List Char) : Bool :=
  Plain.tagOf cs = .text && !isPadded cs && !cs.any needsEscape && !isMultiline cs && !hasMark cs

/-- The text can be written between apostrophes. -/
def allowsSingle (cs : List Char) : Bool :=
  !cs.any needsEscape && !adjacent endsLine (· = ' ') cs && !adjacent (· = ' ') endsLine cs

/-- The style of a text. -/
def of (cs : List Char) : ScalarStyle :=
  if allowsPlain cs then .plain else if allowsSingle cs then .single else .double

/-! ### Written text -/

/-- A line is folded when it is wider than this. -/
def width : Nat := 80

/-- A new line with spaces in front. -/
def newLine (indent : Nat) : List Char := '\n' :: List.replicate indent ' '

/-- Some spaces between two words, and the column after them: one space is folded when the line
is full. -/
def spaced (folds : Bool) (indent column spaces : Nat) : List Char × Nat :=
  if folds && spaces = 1 && width < column then (newLine indent, indent)
  else (List.replicate spaces ' ', column + spaces)

/-- The rest of a plain scalar, after some spaces that are still to be written. -/
def plainRest (folds : Bool) (indent : Nat) : Nat → Nat → List Char → List Char
  | _, spaces, [] => List.replicate spaces ' '
  | column, spaces, c :: cs =>
    if c = ' ' then plainRest folds indent column (spaces + 1) cs
    else
      let (gap, column) := spaced folds indent column spaces
      gap ++ c :: plainRest folds indent (column + 1) 0 cs

/-- What has been read but not yet written between apostrophes. -/
inductive Pending where
  /-- nothing: the text has just begun -/
  | start
  /-- some spaces; `inside` says that they do not begin the text -/
  | spaces (count : Nat) (inside : Bool)
  /-- line ends were written, but not the indentation after them -/
  | lineEnds
deriving DecidableEq, Repr

/-- What is pending, written before another character, and the column after it. -/
def Pending.flush (folds : Bool) (indent column : Nat) : Pending → List Char × Nat
  | start => ([], column)
  | spaces n inside => spaced (folds && inside) indent column n
  | lineEnds => (List.replicate indent ' ', indent)

/-- The rest of a scalar between apostrophes: an apostrophe is written twice, and so is the
first line feed of several line ends. -/
def singleRest (folds : Bool) (indent : Nat) : Nat → Pending → List Char → List Char
  | column, pending, [] => (pending.flush false indent column).1
  | column, pending, c :: cs =>
    if c = ' ' then
      match pending with
      | .start => singleRest folds indent column (.spaces 1 false) cs
      | .spaces n inside => singleRest folds indent column (.spaces (n + 1) (inside || n = 0)) cs
      | .lineEnds =>
        List.replicate indent ' ' ++ singleRest folds indent indent (.spaces 1 true) cs
    else if endsLine c then
      let (gap, column) :=
        match pending with
        | .lineEnds => ([], column)
        | p =>
          let (gap, column) := p.flush folds indent column
          (gap ++ if c = '\n' then ['\n'] else [], column)
      gap ++ c :: singleRest folds indent column .lineEnds cs
    else
      let (gap, column) := pending.flush folds indent column
      let written := if c = '\'' then ['\'', '\''] else [c]
      gap ++ written ++ singleRest folds indent (column + written.length) (.spaces 0 true) cs

/-- The letter that stands for a character after a backslash. -/
def escapeLetter? (c : Char) : Option Char :=
  match c.toNat with
  | 0x00 => some '0'
  | 0x07 => some 'a'
  | 0x08 => some 'b'
  | 0x09 => some 't'
  | 0x0A => some 'n'
  | 0x0B => some 'v'
  | 0x0C => some 'f'
  | 0x0D => some 'r'
  | 0x1B => some 'e'
  | 0x22 => some '"'
  | 0x5C => some '\\'
  | 0x85 => some 'N'
  | 0x2028 => some 'L'
  | 0x2029 => some 'P'
  | _ => none

/-- The escape of a character, for those that need one between double quotes. -/
def escape? (c : Char) : Option (List Char) :=
  let n := c.toNat
  match escapeLetter? c with
  | some l => some ['\\', l]
  | none =>
    if (0x20 ≤ n && n ≤ 0x7E) || (0xA0 ≤ n && n ≤ 0xFFFD && n ≠ 0xFEFF) then none
    else if n < 0x100 then some ('\\' :: 'x' :: (Text.hex 2 n).map Char.toUpper)
    else if n < 0x10000 then some ('\\' :: 'u' :: (Text.hex 4 n).map Char.toUpper)
    else some ('\\' :: 'U' :: (Text.hex 8 n).map Char.toUpper)

/-- A fold between double quotes, before the given text: a backslash ends the line, and another
keeps a space at the start of the next. -/
def doubleFold (indent : Nat) (rest : List Char) : List Char × Nat :=
  if rest.head? = some ' ' then ('\\' :: newLine indent ++ ['\\'], indent + 1)
  else ('\\' :: newLine indent, indent)

/-- The rest of a scalar between double quotes.  A full line is folded before a space, and
before or after an escape, but neither at the first nor at the last character. -/
def doubleRest (folds : Bool) (indent : Nat) : Nat → Bool → Bool → List Char → List Char
  | _, _, _, [] => []
  | column, first, fresh, c :: cs =>
    let foldable := folds && !first && cs ≠ []
    match escape? c with
    | some e =>
      let column := column + e.length
      if foldable && width + 1 < column then
        let (gap, column) := doubleFold indent cs
        e ++ gap ++ doubleRest folds indent column false true cs
      else e ++ doubleRest folds indent column false true cs
    | none =>
      if foldable && (c = ' ' || fresh) && width < column then
        let (gap, column) := doubleFold indent (c :: cs)
        gap ++ c :: doubleRest folds indent (column + 1) false false cs
      else c :: doubleRest folds indent (column + 1) false false cs

/-- The written form of a text that starts at a column; further lines have the given
indentation. -/
def write (folds : Bool) (indent column : Nat) (cs : List Char) : List Char :=
  match of cs with
  | .plain => plainRest folds indent column 0 cs
  | .single => '\'' :: (singleRest folds indent (column + 1) .start cs ++ ['\''])
  | .double => '"' :: (doubleRest folds indent (column + 1) true true cs ++ ['"'])

end ScalarStyle

end ApiOutline.Yaml
