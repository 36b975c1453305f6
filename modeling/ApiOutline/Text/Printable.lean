/-
ApiOutline/Text/Printable.lean

Characters that can be shown as they are.
-/
import ApiOutline.Text.PrintableTable

namespace ApiOutline.Text

/-- The character can be shown as it is. -/
def isPrintable (c : Char) : Bool :=
  if c.toNat < 0x7F then 0x20 ≤ c.toNat else printableRanges.holds c.toNat

end ApiOutline.Text
