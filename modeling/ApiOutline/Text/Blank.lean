/-
ApiOutline/Text/Blank.lean

Blank characters, and text without them.

Design.  Outlines may be spread over lines and indented at will: they are read
after `squeeze` has taken every blank out.  The class has 29 members: white
space, the four information separators U+001C to U+001F, and no zero-width
character.
-/
import ApiOutline.Text.Ranges

namespace ApiOutline.Text

/-- The blank characters. -/
def blankRanges : Ranges :=
  [(0x09, 0x0D), (0x1C, 0x20), (0x85, 0x85), (0xA0, 0xA0), (0x1680, 0x1680),
   (0x2000, 0x200A), (0x2028, 0x2029), (0x202F, 0x202F), (0x205F, 0x205F), (0x3000, 0x3000)]

/-- The character is white space or an information separator. -/
def isBlank (c : Char) : Bool := blankRanges.holds c.toNat

/-- The text without its blanks. -/
def squeeze (cs : List Char) : List Char := cs.filter fun c => !isBlank c

/-- Every character is blank. -/
def allBlank (cs : List Char) : Bool := cs.all isBlank

/-! ### Squeezing -/

@[simp] theorem squeeze_nil : squeeze [] = [] := rfl

theorem squeeze_append (a b : List Char) : squeeze (a ++ b) = squeeze a ++ squeeze b := by
  simp [squeeze]

/-- What is left holds no blank. -/
theorem isBlank_of_mem_squeeze {c : Char} {cs : List Char} (h : c ∈ squeeze cs) :
    isBlank c = false := by
  simpa [squeeze] using (List.mem_filter.mp h).2

/-- Text without blanks is left as it is. -/
theorem squeeze_eq_self {cs : List Char} (h : ∀ c ∈ cs, isBlank c = false) :
    squeeze cs = cs := by
  simpa [squeeze] using h

/-- Squeezing leaves nothing exactly when all is blank. -/
theorem squeeze_eq_nil_iff (cs : List Char) : squeeze cs = [] ↔ allBlank cs = true := by
  simp [squeeze, allBlank]

end ApiOutline.Text
