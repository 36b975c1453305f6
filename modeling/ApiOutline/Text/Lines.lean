/-
ApiOutline/Text/Lines.lean

Line ends of text files and of output streams.
-/

namespace ApiOutline.Text

/-- The text with every line end written as a line feed. -/
def unifyLineEnds : List Char → List Char
  | [] => []
  | '\r' :: '\n' :: cs => '\n' :: unifyLineEnds cs
  | c :: cs => (if c = '\r' then '\n' else c) :: unifyLineEnds cs

/-- The text with a line feed for each pair of carriage return and line feed; a carriage return
alone is left. -/
def joinLineEnds : List Char → List Char
  | [] => []
  | '\r' :: '\n' :: cs => '\n' :: joinLineEnds cs
  | c :: cs => c :: joinLineEnds cs

end ApiOutline.Text
