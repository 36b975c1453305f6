/-
ApiOutline/Text/Ranges.lean

Sets of characters as ascending closed ranges of code points.
-/

namespace ApiOutline.Text

/-- Closed ranges of code points, ascending and apart. -/
abbrev Ranges := List (Nat × Nat)

/-- The code point lies in one of the ranges. -/
def Ranges.holds (rs : Ranges) (n : Nat) : Bool := rs.any fun r => r.1 ≤ n && n ≤ r.2

end ApiOutline.Text
