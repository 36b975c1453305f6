/-
ApiOutline/Yaml/Lexer.lean

The tokens that a YAML text consists of.

Design.  Whether a token is the key of a mapping shows only at the colon after
it.  So the lexer remembers, for each level of flow collections, the last token
that may turn out to be a key, with its place; at a colon the key mark, and the
start of a mapping if the key stands deeper than the block, are inserted in
front of it.  A possible key is forgotten after the line or after 1024
characters; one that stands where only a key can stand must not be
forgotten.  Every step but the last takes a character at least, so the length of
the text bounds the steps.

A fault counts as soon as a token is asked for that cannot be told without going
on to the fault: the token after the last one or, before that, the first
possible key, which may still have to be marked as one (`awaited`).
-/
import ApiOutline.Yaml.ScalarText
import ApiOutline.Yaml.Token

namespace ApiOutline.Yaml

/-- A token that may turn out to be a key: how many tokens stand before it, and its place. -/
structure PossibleKey where
  position : Nat
  mustBe : Bool
  index : Nat
  line : Nat
  column : Nat
deriving Repr

/-- The state of the lexer.  The levels of flow collections are counted by `keys`, which holds
the possible key of each level, the innermost first. -/
structure Lexer where
  cursor : Cursor
  tokens : Array Token := #[]
  indent : Int := -1
  outer : List Int := []
  keyAllowed : Bool := true
  keys : List (Option PossibleKey) := [none]
deriving Repr

namespace Lexer

/-- The lexer is inside a flow collection. -/
def inFlow (l : Lexer) : Bool := 1 < l.keys.length

/-- Appends a token. -/
def emit (l : Lexer) (t : Token) : Lexer := { l with tokens := l.tokens.push t }

/-- Goes on at another place. -/
def goTo (l : Lexer) (c : Cursor) : Lexer := { l with cursor := c }

/-- The possible key of the innermost level. -/
def key? (l : Lexer) : Option PossibleKey := l.keys.head?.join

/-- Sets the possible key of the innermost level. -/
def setKey (l : Lexer) (k : Option PossibleKey) : Lexer := { l with keys := k :: l.keys.drop 1 }

/-! ### Keys and indentation -/

/-- Forgets the possible key of the innermost level. -/
def dropKey (l : Lexer) : Except Fault Lexer :=
  match l.key? with
  | some k => if k.mustBe then throw .malformed else pure (l.setKey none)
  | none => pure l

/-- Remembers the token that comes next as a possible key. -/
def saveKey (l : Lexer) : Except Fault Lexer :=
  if l.keyAllowed then do
    let mustBe := !l.inFlow && l.indent = l.cursor.column
    let l ← l.dropKey
    return l.setKey
      (some ⟨l.tokens.size, mustBe, l.cursor.index, l.cursor.line, l.cursor.column⟩)
  else pure l

/-- The possible key is too far away. -/
def isStale (c : Cursor) (k : PossibleKey) : Bool := k.line ≠ c.line || 1024 < c.index - k.index

/-- Forgets the possible keys that are too far away. -/
def dropStale (l : Lexer) : Except Fault Lexer :=
  if l.keys.any fun k? => k?.any fun k => isStale l.cursor k && k.mustBe then throw .malformed
  else pure { l with keys := l.keys.map fun k? => k?.filter fun k => !isStale l.cursor k }

/-- The first token that cannot be told yet: a possible key that is not too far away, or the
token after the last one. -/
def awaited (l : Lexer) : Nat :=
  l.keys.foldl (fun n k? => match k? with
    | some k => if isStale l.cursor k then n else min n k.position
    | none => n) l.tokens.size

/-- Closes the blocks that are deeper than a column. -/
def unwind (column : Int) (l : Lexer) : List Int → Lexer
  | [] => { l with outer := [] }
  | i :: is =>
    if column < l.indent then unwind column { l.emit .blockEnd with indent := i } is
    else { l with outer := i :: is }

/-- Closes the blocks that are deeper than a column, outside of flow collections. -/
def closeBlocks (l : Lexer) (column : Int) : Lexer :=
  if l.inFlow then l else l.unwind column l.outer

/-- Opens a block if the column is deeper than the one that is open: then its token goes to the
given position. -/
def openBlock (l : Lexer) (column : Nat) (position : Nat) (t : Token) : Lexer :=
  if l.indent < column then
    { l with
      outer := l.indent :: l.outer
      indent := column
      tokens := l.tokens.insertIdxIfInBounds position t }
  else l

/-! ### Space -/

/-- The place after spaces, line breaks and comments, `comment` saying that one has begun. -/
def skipSpace (comment : Bool) : List Char → Cursor → Cursor
  | [], c => c
  | d :: ds, c =>
    if isBreak d then skipSpace false ds c.next
    else if comment || d = '#' then skipSpace true ds c.next
    else if d = ' ' then skipSpace false ds c.next
    else c

/-- Goes to the next token; outside of flow collections a key is allowed on a new line. -/
def toNextToken (l : Lexer) : Lexer :=
  let c := l.cursor
  let c := if c.index = 0 && c.peek.any (·.toNat = 0xFEFF) then c.next else c
  let after := skipSpace false c.rest c
  { l with cursor := after, keyAllowed := l.keyAllowed || (after.line ≠ c.line && !l.inFlow) }

/-! ### Directives -/

/-- A number, which must be there. -/
def number (c : Cursor) : Except Fault (Nat × Cursor) :=
  let ds := c.run Char.isDigit
  if ds = [] then throw .malformed
  else if Literal.maxDigits < ds.length then throw (.badValue (.tooManyDigits ds.length))
  else return (Literal.digitsValue ds, c.skip ds.length)

/-- The characters of a tag. -/
def isTagChar (c : Char) : Bool :=
  c.isAlphanum || "-;/?:@&=+$,_.!~*'()[]%".toList.contains c

/-- The bytes of a tag: percent signs and two digits stand for any bytes. -/
def tagBytes? : List Char → Option (List UInt8)
  | [] => some []
  | '%' :: a :: b :: cs => do
    let high ← Text.hexValue? a
    let low ← Text.hexValue? b
    return (16 * high + low).toUInt8 :: (← tagBytes? cs)
  | c :: cs => if c = '%' then none else do return c.toNat.toUInt8 :: (← tagBytes? cs)

/-- The text of a tag, which must not be empty. -/
def tagText? (c : Cursor) : Option (List Char × Cursor) := do
  let cs := c.run isTagChar
  if cs = [] then none
  else
    let s ← String.fromUTF8? (ByteArray.mk (← tagBytes? cs).toArray)
    return (s.toList, c.skip cs.length)

/-- The handle of a tag: a mark, or a word between two marks. -/
def tagHandle? (c : Cursor) : Option (List Char × Cursor) :=
  if c.sees '!' then
    if c.peekAt 1 = some ' ' then some (['!'], c.next)
    else
      let word := c.next.run isWord
      let after := c.next.skip word.length
      if after.sees '!' then some ('!' :: word ++ ['!'], after.next) else none
  else none

/-- The version that a directive gives. -/
def versionDirective (c : Cursor) : Except Fault (Token × Cursor) := do
  let (major, c) ← number (c.skipWhile (· = ' '))
  if c.sees '.' then
    let (_, c) ← number c.next
    if orEnd (fun d => d = ' ' || isBreak d) c.peek then return (.version major, c)
    else throw .malformed
  else throw .malformed

/-- The handle that a directive gives. -/
def handleDirective? (c : Cursor) : Option (Token × Cursor) := do
  let (handle, c) ← tagHandle? (c.skipWhile (· = ' '))
  if c.sees ' ' then
    let (target, c) ← tagText? (c.skipWhile (· = ' '))
    if orEnd (fun d => d = ' ' || isBreak d) c.peek then return (.handle handle target, c) else none
  else none

/-- A directive, the cursor being at its mark. -/
def directive (c : Cursor) : Except Fault (Token × Cursor) := do
  let name := c.next.run isWord
  let c := c.next.skip name.length
  if name = [] || !orEnd (fun d => d = ' ' || isBreak d) c.peek then throw .malformed
  else
    let (t, c) ←
      if name = ['Y', 'A', 'M', 'L'] then versionDirective c
      else if name = ['T', 'A', 'G'] then (handleDirective? c : Option (Token × Cursor))
      else pure (.otherDirective, c.skipWhile fun d => !isBreak d)
    return (t, ← restOfLine? c)

/-! ### Anchors and tags -/

/-- The character may follow the name of an anchor. -/
def endsName (c : Char) : Bool := isBlank c || "?:,]\x7d%@\u0060".toList.contains c

/-- The name of an anchor or alias, the cursor being at its mark. -/
def anchorName? (c : Cursor) : Option (List Char × Cursor) :=
  let name := c.next.run isWord
  let c := c.next.skip name.length
  if name ≠ [] && orEnd endsName c.peek then some (name, c) else none

/-- A tag, the cursor being at its mark. -/
def tag? (c : Cursor) : Option (TagName × Cursor) := do
  let (name, c) ←
    if c.peekAt 1 = some '<' then do
      let (suffix, c) ← tagText? (c.skip 2)
      if c.sees '>' then some (⟨none, suffix⟩, c.next) else none
    else if orEnd isBlank (c.peekAt 1) then some (⟨none, ['!']⟩, c.next)
    else do
      let word := c.next.run fun d => !(d = ' ' || isBreak d)
      let (handle, c) ← if word.contains '!' then tagHandle? c else some (['!'], c.next)
      let (suffix, c) ← tagText? c
      pure (⟨some handle, suffix⟩, c)
  if orEnd (fun d => d = ' ' || isBreak d) c.peek then return (name, c) else none

/-! ### Steps -/

/-- A token that ends all blocks, at the start of a line. -/
def marker (l : Lexer) (t : Token) (c : Cursor) : Except Fault Lexer := do
  let l ← (l.closeBlocks (-1)).dropKey
  return ({ l with keyAllowed := false }.emit t).goTo c

/-- A directive ends all blocks too. -/
def directiveMarker (l : Lexer) : Except Fault Lexer := do
  let l ← (l.closeBlocks (-1)).dropKey
  let (t, c) ← directive l.cursor
  return ({ l with keyAllowed := false }.emit t).goTo c

/-- An opening bracket. -/
def openBracket (l : Lexer) (t : Token) : Except Fault Lexer := do
  let l ← l.saveKey
  return ({ l with keys := none :: l.keys, keyAllowed := true }.emit t).goTo l.cursor.next

/-- A closing bracket. -/
def closeBracket (l : Lexer) (t : Token) : Except Fault Lexer := do
  if l.inFlow then
    let l ← l.dropKey
    return ({ l with keys := l.keys.drop 1, keyAllowed := false }.emit t).goTo l.cursor.next
  else throw .malformed

/-- A mark that opens a block where it stands, if it stands outside of flow collections. -/
def opening (l : Lexer) (block : Token) : Except Fault Lexer :=
  if l.inFlow then pure l
  else if l.keyAllowed then pure (l.openBlock l.cursor.column l.tokens.size block)
  else throw .malformed

/-- The hyphen of a sequence entry. -/
def entry (l : Lexer) : Except Fault Lexer := do
  let l ← (← l.opening .blockSequence).dropKey
  return ({ l with keyAllowed := true }.emit .entry).goTo l.cursor.next

/-- The question mark of a key. -/
def explicitKey (l : Lexer) : Except Fault Lexer := do
  let l ← (← l.opening .blockMapping).dropKey
  return ({ l with keyAllowed := !l.inFlow }.emit .key).goTo l.cursor.next

/-- The colon of a value. -/
def value (l : Lexer) : Except Fault Lexer := do
  match l.key? with
  | some k =>
    let l := l.setKey none
    let l := { l with tokens := l.tokens.insertIdxIfInBounds k.position .key }
    let l := if l.inFlow then l else l.openBlock k.column k.position .blockMapping
    return ({ l with keyAllowed := false }.emit .value).goTo l.cursor.next
  | none =>
    let l ← (← l.opening .blockMapping).dropKey
    return ({ l with keyAllowed := !l.inFlow }.emit .value).goTo l.cursor.next

/-- A token that may be a key, or the start of one. -/
def content (l : Lexer) (x : Except Fault (Token × Cursor)) : Except Fault Lexer := do
  let l ← l.saveKey
  let (t, c) ← x
  return ({ l with keyAllowed := false }.emit t).goTo c

/-- The name of an anchor or alias, as a token. -/
def nameToken (c : Cursor) (token : List Char → Token) : Except Fault (Token × Cursor) := do
  let (name, c) ← anchorName? c
  return (token name, c)

/-- A tag, as a token. -/
def tagToken (c : Cursor) : Except Fault (Token × Cursor) := do
  let (name, c) ← tag? c
  return (.tag name, c)

/-- A quoted scalar, as a token. -/
def quotedToken (quote : Char) (c : Cursor) : Except Fault (Token × Cursor) := do
  let (text, c) ← quotedScalar quote c
  return (.scalar text false, c)

/-- A plain scalar; after a line break a key is allowed again. -/
def plain (l : Lexer) : Except Fault Lexer := do
  let l ← l.saveKey
  let (text, broken, c) := plainScalar l.inFlow l.indent l.cursor
  return ({ l with keyAllowed := broken }.emit (.scalar text true)).goTo c

/-- A block scalar. -/
def block (l : Lexer) (folded : Bool) : Except Fault Lexer := do
  let l ← { l with keyAllowed := true }.dropKey
  let (text, c) ← blockScalar? folded l.indent l.cursor
  return (l.emit (.scalar text false)).goTo c

/-- A plain scalar can start with the character, `after` being the one after it. -/
def startsPlain (inFlow : Bool) (d : Char) (after : Option Char) : Bool :=
  !(isBlank d || "-?:,[]\x7b\x7d#&*!|>'\"%@\u0060".toList.contains d) ||
    (!orEnd isBlank after && (d = '-' || (!inFlow && (d = '?' || d = ':'))))

/-- The step at a character. -/
def atCharacter (l : Lexer) (d : Char) : Except Fault Lexer :=
  let c := l.cursor
  let spaced := orEnd isBlank (c.peekAt 1)
  if d = '%' && c.column = 0 then l.directiveMarker
  else if c.column = 0 && c.atMarker '-' then l.marker .documentStart (c.skip 3)
  else if c.column = 0 && c.atMarker '.' then l.marker .documentEnd (c.skip 3)
  else if d = '[' then l.openBracket .openSequence
  else if d = '\x7b' then l.openBracket .openMapping
  else if d = ']' then l.closeBracket .closeSequence
  else if d = '\x7d' then l.closeBracket .closeMapping
  else if d = ',' then do
    let l ← l.dropKey
    return ({ l with keyAllowed := true }.emit .comma).goTo c.next
  else if d = '-' && spaced then l.entry
  else if d = '?' && (l.inFlow || spaced) then l.explicitKey
  else if d = ':' && (l.inFlow || spaced) then l.value
  else if d = '*' then l.content (nameToken c .alias)
  else if d = '&' then l.content (nameToken c .anchor)
  else if d = '!' then l.content (tagToken c)
  else if d = '|' && !l.inFlow then l.block false
  else if d = '>' && !l.inFlow then l.block true
  else if d = '\'' || d = '"' then l.content (quotedToken d c)
  else if startsPlain l.inFlow d (c.peekAt 1) then l.plain
  else throw .malformed

/-- The end of the text. -/
def finish (l : Lexer) : Except Fault Lexer := do
  let l ← (l.closeBlocks (-1)).dropKey
  return l.emit .finish

/-- One step: the next token, with the blocks that end before it. -/
def step (l : Lexer) : Except Fault Lexer := do
  let l ← l.toNextToken.dropStale
  let l := l.closeBlocks l.cursor.column
  match l.cursor.peek with
  | none => l.finish
  | some d => l.atCharacter d

/-- The tokens up to a fault. -/
def breakOff (l : Lexer) (f : Fault) : List Token := l.tokens.toList.take l.awaited ++ [.broken f]

/-- All steps. -/
def run : Nat → Lexer → List Token
  | 0, l => l.breakOff .malformed
  | n + 1, l =>
    match l.step with
    | .error f => l.breakOff f
    | .ok l => if l.tokens.back? = some .finish then l.tokens.toList else run n l

end Lexer

/-- The tokens of a text. -/
def Token.ofText (text : List Char) : List Token :=
  if text.all isAllowed then Lexer.run (text.length + 1) { cursor := { rest := text } }
  else [.broken .malformed]

end ApiOutline.Yaml
