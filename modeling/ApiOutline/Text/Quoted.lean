/-
ApiOutline/Text/Quoted.lean

Text as a message quotes it.

Design.  The quote is an apostrophe, unless the text holds one and no double
quote.  A backslash and the quote in use are escaped, line breaks and tabs have
a letter, and what cannot be shown is written by its code point.  Bytes are
quoted likewise, with a letter in front; of them only those of visible ASCII
characters are shown.
-/
import ApiOutline.Text.Hex
import ApiOutline.Text.Printable

namespace ApiOutline.Text

/-- The quote that a message puts around a text. -/
def quoteFor (cs : List Char) : Char :=
  if cs.contains '\'' && !cs.contains '"' then '"' else '\''

/-- One character of a quoted text. -/
def quotedChar (quote c : Char) : List Char :=
  if c = quote ∨ c = '\\' then ['\\', c]
  else if c = '\t' then ['\\', 't']
  else if c = '\n' then ['\\', 'n']
  else if c = '\r' then ['\\', 'r']
  else if isPrintable c then [c]
  else if c.toNat < 0x100 then '\\' :: 'x' :: hex 2 c.toNat
  else if c.toNat < 0x10000 then '\\' :: 'u' :: hex 4 c.toNat
  else '\\' :: 'U' :: hex 8 c.toNat

/-- The text between quotes. -/
def quoted (cs : List Char) : List Char :=
  quoteFor cs :: (cs.flatMap (quotedChar (quoteFor cs)) ++ [quoteFor cs])

/-- One byte between quotes. -/
def quotedByte (quote : Char) (b : UInt8) : List Char :=
  if b < 0x80 then quotedChar quote (Char.ofNat b.toNat) else '\\' :: 'x' :: hex 2 b.toNat

/-- The bytes between quotes. -/
def quotedBytes (bs : List UInt8) : List Char :=
  let quote := quoteFor (bs.map fun b => Char.ofNat b.toNat)
  'b' :: quote :: (bs.flatMap (quotedByte quote) ++ [quote])

end ApiOutline.Text
