/-
ApiOutline/Text/Base64.lean

Bytes in base 64.

Design.  Four letters of the alphabet make three bytes; two or three letters at
the end make one or two, if padding fills up the four.  Characters outside the
alphabet do not count, and neither does padding after fewer than two
letters.  The first padding that fills up a group of four ends the text.
-/

namespace ApiOutline.Text.Base64

/-- The value of a letter of the alphabet. -/
def letterValue? (c : Char) : Option Nat :=
  if 'A' ≤ c && c ≤ 'Z' then some (c.toNat - 0x41)
  else if 'a' ≤ c && c ≤ 'z' then some (c.toNat - 0x47)
  else if c.isDigit then some (c.toNat + 4)
  else if c = '+' then some 62
  else if c = '/' then some 63
  else none

/-- The bytes that a group of up to four letters makes. -/
def groupBytes : List Nat → List Nat
  | [a, b] => [4 * a + b / 16]
  | [a, b, c] => [4 * a + b / 16, 16 * (b % 16) + c / 4]
  | [a, b, c, d] => [4 * a + b / 16, 16 * (b % 16) + c / 4, 64 * (c % 4) + d]
  | _ => []

/-- The bytes of a text, `group` being the letters of a group that has begun, and `padding` how
much padding stands right before the text. -/
def bytesFrom? (group : List Nat) (padding : Nat) : List Char → Option (List Nat)
  | [] => if group = [] then some [] else none
  | c :: cs =>
    if c = '=' then
      if group.length < 2 then bytesFrom? group padding cs
      else if 4 ≤ group.length + padding + 1 then some (groupBytes group)
      else bytesFrom? group (padding + 1) cs
    else
      match letterValue? c with
      | none => bytesFrom? group padding cs
      | some n =>
        if group.length = 3 then
          (bytesFrom? [] 0 cs).map (groupBytes (group ++ [n]) ++ ·)
        else bytesFrom? (group ++ [n]) 0 cs

/-- The bytes that a text of ASCII characters writes. -/
def decode? (cs : List Char) : Option (List UInt8) :=
  if cs.all fun c => c.toNat < 0x80 then (bytesFrom? [] 0 cs).map fun bs => bs.map Nat.toUInt8
  else none

end ApiOutline.Text.Base64
