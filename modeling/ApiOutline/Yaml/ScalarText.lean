/-
ApiOutline/Yaml/ScalarText.lean

The texts of scalars: plain, quoted, and indented blocks.

Design.  Each function takes the cursor at the start of a scalar and gives its
text and the cursor after it.  A single line break inside a scalar is folded to
a space; of several, the first is dropped and the others are kept.  A loop over
the text counts down the characters that are left, one over line breaks the
blanks that follow each other.
-/
import ApiOutline.Yaml.Cursor
import ApiOutline.Yaml.Fault

namespace ApiOutline.Yaml

/-- What the line breaks of a scalar become: the first one, and the others. -/
def fold (first : Char) (others : List Char) : List Char :=
  if first ≠ '\n' then first :: others
  else if others = [] then [' ']
  else others

/-! ### Quoted scalars -/

/-- The line breaks from here on, with the space around them; a document marker must not stand
at the start of a line. -/
def quotedBreaks : Nat → Cursor → Option (List Char × Cursor)
  | 0, _ => none
  | n + 1, c =>
    if c.atAnyMarker then none
    else
      let c := c.skipWhile fun d => d = ' ' || d = '\t'
      match c.lineBreak? with
      | none => some ([], c)
      | some (b, c) => (quotedBreaks n c).map fun r => (b :: r.1, r.2)

/-- The character that a letter stands for after a backslash. -/
def escape? : Char → Option Char
  | '0' => some (Char.ofNat 0)
  | 'a' => some (Char.ofNat 0x07)
  | 'b' => some (Char.ofNat 0x08)
  | 't' => some '\t'
  | '\t' => some '\t'
  | 'n' => some '\n'
  | 'v' => some (Char.ofNat 0x0B)
  | 'f' => some (Char.ofNat 0x0C)
  | 'r' => some '\r'
  | 'e' => some (Char.ofNat 0x1B)
  | ' ' => some ' '
  | '"' => some '"'
  | '/' => some '/'
  | '\\' => some '\\'
  | 'N' => some (Char.ofNat 0x85)
  | '_' => some (Char.ofNat 0xA0)
  | 'L' => some (Char.ofNat 0x2028)
  | 'P' => some (Char.ofNat 0x2029)
  | _ => none

/-- How many hexadecimal digits follow a letter after a backslash. -/
def escapeWidth? : Char → Option Nat
  | 'x' => some 2
  | 'u' => some 4
  | 'U' => some 8
  | _ => none

/-- The value of hexadecimal digits, all of which must be there. -/
def hexNumber? (width : Nat) (cs : List Char) : Option Nat :=
  let ds := cs.take width
  if ds.length = width then
    ds.foldl (fun n? d => do return 16 * (← n?) + (← Text.hexValue? d)) (some 0)
  else none

/-- The second half of a character that takes two escapes, `u` and four digits each. -/
def secondHalf? (rest : List Char) : Option Nat :=
  match rest with
  | '\\' :: 'u' :: ds => (hexNumber? 4 ds).filter fun n => 0xDC00 ≤ n && n < 0xE000
  | _ => none

/-- The character with a code. -/
def character (code : Nat) : Except Fault Char :=
  if code < 0x110000 then .ok (Char.ofNat code)
  else if code < 0x80000000 then .error (.badValue .noCharacter)
  else .error (.badValue .longCharacter)

/-- What an escape stands for, the cursor being after its backslash. -/
def escaped (c : Cursor) : Except Fault (List Char × Cursor) := do
  let d ← c.peek
  match escape? d, escapeWidth? d with
  | some e, _ => return ([e], c.next)
  | none, some width =>
    let n ← hexNumber? width c.next.rest
    let c := c.next.skip width
    match secondHalf? c.rest with
    | some m =>
      if 0xD800 ≤ n ∧ n < 0xDC00 then
        return ([Char.ofNat (0x10000 + (n - 0xD800) * 0x400 + (m - 0xDC00))], c.skip 6)
      else return ([← character n], c)
    | none => return ([← character n], c)
  | none, none =>
    if isBreak d then quotedBreaks (c.blanks + 1) c.skipBreak else throw .malformed

/-- The rest of a quoted scalar. -/
def quotedText (quote : Char) : Nat → Cursor → Except Fault (List Char × Cursor)
  | 0, _ => throw .malformed
  | n + 1, c => do
    let d ← c.peek
    if d = quote then
      if quote = '\'' && c.peekAt 1 = some '\'' then
        let (text, c) ← quotedText quote n (c.skip 2)
        return ('\'' :: text, c)
      else return ([], c.next)
    else if d = '\\' && quote = '"' then
      let (e, c) ← escaped c.next
      let (text, c) ← quotedText quote n c
      return (e ++ text, c)
    else if isBlank d then
      let space := c.run fun d => d = ' ' || d = '\t'
      let c := c.skip space.length
      match c.lineBreak? with
      | none =>
        let (text, c) ← quotedText quote n c
        return (space ++ text, c)
      | some (b, c) =>
        let (bs, c) ← quotedBreaks n c
        let (text, c) ← quotedText quote n c
        return (fold b bs ++ text, c)
    else
      let (text, c) ← quotedText quote n c.next
      return (d :: text, c)

/-- A quoted scalar, the cursor being at its quote. -/
def quotedScalar (quote : Char) (c : Cursor) : Except Fault (List Char × Cursor) :=
  quotedText quote (c.rest.length + 1) c.next

/-! ### Plain scalars -/

/-- How many characters a plain scalar has before the next blank, mark or comment. -/
def plainLength (inFlow : Bool) : List Char → Nat
  | [] => 0
  | c :: cs =>
    if isBlank c || (inFlow && (isFlowMark c || c = '?')) ||
        (c = ':' && orEnd (fun d => isBlank d || (inFlow && isFlowMark d)) cs.head?) then 0
    else plainLength inFlow cs + 1

/-- The line breaks between two lines of a plain scalar, with the spaces around them; nothing if
a document marker stands at the start of a line. -/
def plainBreaks : Nat → Cursor → Option (List Char) × Cursor
  | 0, c => (none, c)
  | n + 1, c =>
    if c.atAnyMarker then (none, c)
    else
      let c := c.skipWhile (· = ' ')
      match c.lineBreak? with
      | none => (some [], c)
      | some (b, c) =>
        let r := plainBreaks n c
        (r.1.map (b :: ·), r.2)

/-- What joins two parts of a plain scalar, and whether a line ended between them; nothing if
the scalar ends here. -/
def plainGap (c : Cursor) : Option (List Char) × Bool × Cursor :=
  let space := c.run (· = ' ')
  let c := c.skip space.length
  match c.lineBreak? with
  | none => (if space = [] then none else some space, false, c)
  | some (b, c) =>
    let r := plainBreaks (c.blanks + 1) c
    (r.1.map (fold b), true, r.2)

/-- The rest of a plain scalar, `gap` being what stands before its next part; and whether a line
ended after its last part. -/
def plainText (inFlow : Bool) (indent : Int) :
    Nat → List Char → Bool → Cursor → List Char × Bool × Cursor
  | 0, _, broken, c => ([], broken, c)
  | n + 1, gap, broken, c =>
    let length := if c.sees '#' then 0 else plainLength inFlow c.rest
    if length = 0 then ([], broken, c)
    else
      let part := gap ++ c.rest.take length
      let (gap, broken, c) := plainGap (c.skip length)
      match gap with
      | none => (part, broken, c)
      | some gap =>
        if c.sees '#' || (!inFlow && (c.column : Int) < indent) then (part, broken, c)
        else
          let (rest, broken, c) := plainText inFlow indent n gap broken c
          (part ++ rest, broken, c)

/-- A plain scalar inside a block of the given indentation, and whether a line ended after it. -/
def plainScalar (inFlow : Bool) (indent : Int) (c : Cursor) : List Char × Bool × Cursor :=
  plainText inFlow (indent + 1) (c.rest.length + 1) [] false c

/-! ### Block scalars -/

/-- What becomes of the line breaks at the end of a block scalar. -/
inductive Chomping where
  | clip
  | strip
  | keep
deriving DecidableEq, Repr

/-- The chomping that a sign says. -/
def chomping? : Option Char → Option Chomping
  | some '+' => some .keep
  | some '-' => some .strip
  | _ => none

/-- The indentation that a digit says; zero is none. -/
def increment? (d : Option Char) : Option (Option Nat) :=
  match d with
  | some d =>
    if !d.isDigit then some none
    else if d = '0' then none
    else some (some (d.toNat - 0x30))
  | none => some none

/-- The signs after the mark of a block scalar, in either order. -/
def blockHeader? (c : Cursor) : Option (Chomping × Option Nat × Cursor) := do
  match chomping? c.peek with
  | some chomping =>
    let increment ← increment? c.next.peek
    return (chomping, increment, if increment.isSome then c.skip 2 else c.next)
  | none =>
    let increment ← increment? c.peek
    let c := if increment.isSome then c.next else c
    match increment, chomping? c.peek with
    | some _, some chomping => return (chomping, increment, c.next)
    | _, _ => return (.clip, increment, c)

/-- The place after spaces and a comment up to the end of a line; nothing else may stand there. -/
def restOfLine? (c : Cursor) : Option Cursor :=
  let c := c.skipWhile (· = ' ')
  let c := if c.sees '#' then c.skipWhile fun d => !isBreak d else c
  if orEnd isBreak c.peek then some c.skipBreak else none

/-- The place after spaces up to a column. -/
def toColumn (indent : Nat) (c : Cursor) : Cursor :=
  c.skip (min (indent - c.column) (c.run (· = ' ')).length)

/-- The empty lines from here on, in a block of the given indentation. -/
def blockBreaks (indent : Nat) : Nat → Cursor → List Char × Cursor
  | 0, c => ([], c)
  | n + 1, c =>
    let c := toColumn indent c
    match c.lineBreak? with
    | none => ([], c)
    | some (b, c) =>
      let r := blockBreaks indent n c
      (b :: r.1, r.2)

/-- The empty lines from here on, and the deepest column that spaces reach. -/
def blockIndentation : Nat → Cursor → List Char × Nat × Cursor
  | 0, c => ([], 0, c)
  | n + 1, c =>
    let deep := c.skipWhile (· = ' ')
    let column := if c.sees ' ' then deep.column else 0
    match deep.lineBreak? with
    | none => ([], column, deep)
    | some (b, c) =>
      let (bs, most, c) := blockIndentation n c
      (b :: bs, max column most, c)

/-- The lines of a block scalar, `breaks` being the empty lines before the next one; and the
breaks at its end, the last of the text apart. -/
def blockLines (folded : Bool) (indent : Nat) :
    Nat → List Char → Cursor → List Char × Option Char × List Char × Cursor
  | 0, breaks, c => ([], none, breaks, c)
  | n + 1, breaks, c =>
    if c.column = indent && c.peek.isSome then
      let flush := c.peek ≠ some ' ' && c.peek ≠ some '\t'
      let line := c.run fun d => !isBreak d
      let c := c.skip line.length
      let ending := c.lineBreak?.map Prod.fst
      let (more, c) := blockBreaks indent (c.blanks + 1) c.skipBreak
      if c.column = indent && c.peek.isSome then
        let joint :=
          if folded && ending = some '\n' && flush && c.peek ≠ some ' ' && c.peek ≠ some '\t' then
            if more = [] then [' '] else []
          else ending.toList
        let (text, last, tail, c) := blockLines folded indent n more c
        (breaks ++ line ++ joint ++ text, last, tail, c)
      else (breaks ++ line, ending, more, c)
    else ([], none, breaks, c)

/-- A block scalar, the cursor being at its mark, inside a block of the given indentation. -/
def blockScalar? (folded : Bool) (outer : Int) (c : Cursor) : Option (List Char × Cursor) := do
  let (chomping, increment, c) ← blockHeader? c.next
  let c ← if orEnd (fun d => d = ' ' || isBreak d) c.peek then restOfLine? c else none
  let least := (max (outer + 1) 1).toNat
  let (indent, breaks, c) :=
    match increment with
    | some i =>
      let indent := least + i - 1
      let (breaks, c) := blockBreaks indent (c.blanks + 1) c
      (indent, breaks, c)
    | none =>
      let (breaks, deepest, c) := blockIndentation (c.blanks + 1) c
      (max least deepest, breaks, c)
  let (text, last, tail, c) := blockLines folded indent (c.rest.length + 1) breaks c
  let ending :=
    match chomping with
    | .strip => []
    | .clip => last.toList
    | .keep => last.toList ++ tail
  return (text ++ ending, c)

end ApiOutline.Yaml
