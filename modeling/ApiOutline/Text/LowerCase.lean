/-
ApiOutline/Text/LowerCase.lean

Text in small letters.

Design.  Every capital has one small form, but for two: the capital I with a dot
becomes two characters, and a capital sigma becomes the final sigma at the end
of a word.  A sigma ends a word when a letter with case stands before it and
none after it, looking past the characters that a word's case ignores.
-/
import ApiOutline.Text.CaseTable

namespace ApiOutline.Text

/-- The small form of a letter that has just one. -/
def smallLetter (c : Char) : Char :=
  match capitalRuns.find? fun r =>
      r.first ≤ c.toNat && c.toNat ≤ r.last && (c.toNat - r.first) % r.step == 0 with
  | some r => Char.ofNat (c.toNat + r.shift).toNat
  | none => c

/-- The next character that a word's case does not ignore is a letter with case. -/
def meetsLetter (cs : List Char) : Bool :=
  match cs.dropWhile fun c => caseIgnorableRanges.holds c.toNat with
  | [] => false
  | c :: _ => casedRanges.holds c.toNat

/-- The text in small letters, `before` being what stands before it, last character first. -/
def lowerCaseAfter (before : List Char) : List Char → List Char
  | [] => []
  | c :: cs =>
    (if c.toNat = 0x130 then ['i', Char.ofNat 0x307]
     else if c.toNat = 0x3A3 then
       [Char.ofNat (if meetsLetter before && !meetsLetter cs then 0x3C2 else 0x3C3)]
     else [smallLetter c]) ++ lowerCaseAfter (c :: before) cs

/-- The text in small letters. -/
def lowerCase (cs : List Char) : List Char := lowerCaseAfter [] cs

end ApiOutline.Text
