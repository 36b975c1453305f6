/-
ApiOutline/Shape/Block.lean

Nested blocks, taken out of a text one by one.

Design.  A block that holds no bracket is taken out of the text, the leftmost
first, and the placeholder `$N` is left in its place, `N` being the number of
blocks taken out before.  Each step takes two brackets away, so this comes to an
end; the text that is left holds no bracket exactly when all of them matched.
-/
import ApiOutline.Text.Cut

namespace ApiOutline

/-- The two kinds of block. -/
inductive BlockKind where
  | object
  | array
deriving DecidableEq, Repr

/-- A block: its kind and the text between its brackets. -/
structure Block where
  kind : BlockKind
  body : List Char
deriving DecidableEq, Repr

namespace BlockKind

/-- The opening bracket. -/
def opening : BlockKind → Char
  | object => '{'
  | array => '['

/-- The closing bracket. -/
def closing : BlockKind → Char
  | object => '}'
  | array => ']'

/-- The kind that a character opens. -/
def ofOpening? (c : Char) : Option BlockKind :=
  if c = '{' then some object else if c = '[' then some array else none

end BlockKind

namespace Block

/-- The character is one of the four brackets. -/
def isBracket (c : Char) : Bool := c = '{' || c = '}' || c = '[' || c = ']'

/-- The block with its brackets. -/
def text (b : Block) : List Char := b.kind.opening :: (b.body ++ [b.kind.closing])

/-- The block without inner brackets that a text starts with, when `c` is the first character
and `cs` the rest, and what follows it. -/
def leading? (c : Char) (cs : List Char) : Option (Block × List Char) :=
  match BlockKind.ofOpening? c with
  | none => none
  | some kind =>
    match cs.dropWhile fun d => !isBracket d with
    | [] => none
    | d :: rest =>
      if d = kind.closing then some (⟨kind, cs.takeWhile fun d => !isBracket d⟩, rest) else none

/-- The leftmost block without inner brackets, between what stands before and after it. -/
structure Found where
  before : List Char
  block : Block
  after : List Char
deriving DecidableEq, Repr

/-- The leftmost block of a text that holds no inner bracket. -/
def innermost? : List Char → Option Found
  | [] => none
  | c :: cs =>
    match leading? c cs with
    | some (b, rest) => some ⟨[], b, rest⟩
    | none => (innermost? cs).map fun f => { f with before := c :: f.before }

/-! ### What is found -/

theorem leading?_eq_some {c : Char} {cs : List Char} {b : Block} {rest : List Char}
    (h : leading? c cs = some (b, rest)) :
    c :: cs = b.text ++ rest ∧ ∀ d ∈ b.body, isBracket d = false := by
  unfold leading? at h
  split at h
  · simp at h
  · rename_i kind hk
    split at h
    · simp at h
    · rename_i d r hd
      split at h
      · rename_i hc
        simp only [Option.some.injEq, Prod.mk.injEq] at h
        obtain ⟨rfl, rfl⟩ := h
        have ho : c = kind.opening := by
          unfold BlockKind.ofOpening? at hk
          split at hk
          · simp_all [BlockKind.opening]
            subst hk; rfl
          · split at hk <;> simp_all
            subst hk; rfl
        refine ⟨?_, ?_⟩
        · have := List.takeWhile_append_dropWhile (p := fun d => !isBracket d) (l := cs)
          rw [hd] at this
          subst ho hc
          simp only [text, List.cons_append, List.append_assoc, List.nil_append, List.cons.injEq,
            true_and]
          exact this.symm
        · intro e he
          simpa using List.all_takeWhile (p := fun d => !isBracket d) (l := cs) |> fun hall =>
            List.all_eq_true.mp hall e he
      · simp at h

/-- The text is what stands before the block, the block, and what stands after it; the block
holds no bracket inside. -/
theorem innermost?_eq_some {cs : List Char} {f : Found} (h : innermost? cs = some f) :
    cs = f.before ++ f.block.text ++ f.after ∧ ∀ d ∈ f.block.body, isBracket d = false := by
  induction cs generalizing f with
  | nil => simp [innermost?] at h
  | cons c cs ih =>
    unfold innermost? at h
    split at h
    · rename_i b rest hb
      simp only [Option.some.injEq] at h
      subst h
      simpa using leading?_eq_some hb
    · obtain ⟨g, hg, rfl⟩ := Option.map_eq_some_iff.mp h
      obtain ⟨e, hb⟩ := ih hg
      exact ⟨by simp [e], hb⟩

/-! ### Placeholders -/

/-- The text that stands for the block with a given number. -/
def placeholder (n : Nat) : List Char := '$' :: Nat.toDigits 10 n

/-- A placeholder stands somewhere in the text. -/
def mentionsPlaceholder : List Char → Bool
  | [] => false
  | [_] => false
  | c :: d :: cs => (c = '$' && d.isDigit) || mentionsPlaceholder (d :: cs)

/-- The text is a dollar sign and digits, and nothing else. -/
def isReference : List Char → Bool
  | c :: d :: ds => c = '$' && (d :: ds).all Char.isDigit
  | _ => false

/-- The number of brackets in a text. -/
def brackets (cs : List Char) : Nat := cs.countP isBracket

/-- A digit is no bracket. -/
theorem isBracket_of_isDigit {c : Char} (h : c.isDigit = true) : isBracket c = false := by
  cases hb : isBracket c with
  | false => rfl
  | true =>
    simp only [isBracket, Bool.or_eq_true, decide_eq_true_eq] at hb
    rcases hb with ((rfl | rfl) | rfl) | rfl <;> exact absurd h (by decide)

theorem isBracket_of_mem_placeholder {n : Nat} {c : Char} (h : c ∈ placeholder n) :
    isBracket c = false := by
  rcases List.mem_cons.mp h with rfl | h
  · rfl
  · exact isBracket_of_isDigit (Nat.isDigit_of_mem_toDigits (by decide) (by decide) h)

theorem brackets_placeholder (n : Nat) : brackets (placeholder n) = 0 := by
  simpa [brackets, List.countP_eq_zero] using fun c => isBracket_of_mem_placeholder (n := n)

end Block

/-- A text without nested blocks, and the blocks that its placeholders stand for. -/
structure Flat where
  root : List Char
  blocks : List Block
deriving DecidableEq, Repr

namespace Flat

open Block

theorem brackets_replace {cs : List Char} {f : Found} (h : innermost? cs = some f) (n : Nat) :
    brackets (f.before ++ placeholder n ++ f.after) + 2 = brackets cs := by
  obtain ⟨e, hb⟩ := innermost?_eq_some h
  have hbody : f.block.body.countP isBracket = 0 := by simpa [List.countP_eq_zero] using hb
  have hp := brackets_placeholder n
  unfold brackets at hp
  have ho : isBracket f.block.kind.opening = true := by cases f.block.kind <;> rfl
  have hc : isBracket f.block.kind.closing = true := by cases f.block.kind <;> rfl
  rw [e]
  simp [brackets, text, List.countP_append, hp, hbody, ho, hc]
  omega

/-- Takes the blocks out of a text, `taken` having been taken out before. -/
def flattenFrom (taken : List Block) (cs : List Char) : Flat :=
  match _h : innermost? cs with
  | none => ⟨cs, taken⟩
  | some f =>
    flattenFrom (taken ++ [f.block]) (f.before ++ placeholder taken.length ++ f.after)
termination_by brackets cs
decreasing_by
  have := brackets_replace _h taken.length
  omega

/-- Takes all blocks out of a text. -/
def ofText (cs : List Char) : Flat := flattenFrom [] cs

/-- All brackets of the text matched. -/
def balanced (flat : Flat) : Bool := flat.root.all fun c => !isBracket c

end Flat

end ApiOutline
