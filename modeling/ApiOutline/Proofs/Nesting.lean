/-
ApiOutline/Proofs/Nesting.lean

Texts whose brackets match, as trees.

Design.  A nested text is empty, or a character that is no bracket and the rest,
or a block, that is a nested text between two brackets of one kind, and the
rest.  So its trees are the derivations of the words of two kinds of brackets
that match, with other characters strewn in.

A second description reads the text once from the left and keeps the kinds of
the blocks that are open (`openAfter`): it has no tree, but it is compatible with
putting texts side by side, which is what taking blocks out of a text needs.

Main result: a text ends with no block open, and never closes what is not open,
exactly when it is the text of a tree (`exists_nested_iff`).
-/
import ApiOutline.Shape.Block

namespace ApiOutline

open Block

/-! ### Brackets -/

namespace BlockKind

@[simp] theorem isBracket_opening (k : BlockKind) : isBracket k.opening = true := by
  cases k <;> rfl

@[simp] theorem isBracket_closing (k : BlockKind) : isBracket k.closing = true := by
  cases k <;> rfl

@[simp] theorem ofOpening?_opening (k : BlockKind) : ofOpening? k.opening = some k := by
  cases k <;> rfl

@[simp] theorem ofOpening?_closing (k : BlockKind) (l : BlockKind) :
    ofOpening? k.closing = some l ↔ False := by
  cases k <;> simp [ofOpening?, closing]

theorem opening_of_ofOpening? {c : Char} {k : BlockKind} (h : ofOpening? c = some k) :
    c = k.opening := by
  unfold ofOpening? at h
  split at h
  · rename_i hc
    obtain rfl := Option.some.inj h
    exact hc
  · split at h
    · rename_i hc
      obtain rfl := Option.some.inj h
      exact hc
    · cases h

theorem ofOpening?_of_isBracket {c : Char} (h : isBracket c = false) : ofOpening? c = none := by
  rcases e : ofOpening? c with - | k
  · rfl
  · rw [opening_of_ofOpening? e, isBracket_opening] at h
    cases h

/-- A character closes a block of some kind. -/
def closes (c : Char) : Bool := c = '}' || c = ']'

theorem isBracket_eq (c : Char) : isBracket c = ((ofOpening? c).isSome || closes c) := by
  unfold isBracket ofOpening? closes
  by_cases h1 : c = '{'
  · simp [h1]
  · by_cases h2 : c = '['
    · simp [h2]
    · simp [h1, h2]

@[simp] theorem closes_opening (k : BlockKind) : closes k.opening = false := by
  cases k <;> rfl

@[simp] theorem closes_closing (k : BlockKind) : closes k.closing = true := by
  cases k <;> rfl

theorem closes_of_isBracket {c : Char} (h : isBracket c = false) : closes c = false := by
  rw [isBracket_eq, Bool.or_eq_false_iff] at h
  exact h.2

end BlockKind

/-! ### Trees -/

/-- A text whose brackets match. -/
inductive Nested where
  | nil
  | char (c : Char) (plain : isBracket c = false) (rest : Nested)
  | block (kind : BlockKind) (body rest : Nested)
deriving DecidableEq, Repr

namespace Nested

/-- The text of a tree. -/
def text : Nested → List Char
  | nil => []
  | char c _ rest => c :: rest.text
  | block k body rest => k.opening :: (body.text ++ k.closing :: rest.text)

/-- The number of blocks, at all depths. -/
def size : Nested → Nat
  | nil => 0
  | char _ _ rest => rest.size
  | block _ body rest => body.size + rest.size + 1

end Nested

/-! ### Blocks that are open -/

/-- The kinds of the blocks that are open after a character, the innermost first; nothing if the
character closes a block that is not the innermost one. -/
def openAfterChar (kinds : List BlockKind) (c : Char) : Option (List BlockKind) :=
  match BlockKind.ofOpening? c with
  | some k => some (k :: kinds)
  | none =>
    if isBracket c then
      match kinds with
      | [] => none
      | k :: outer => if c = k.closing then some outer else none
    else some kinds

/-- The kinds of the blocks that are open after a text. -/
def openAfter : List BlockKind → List Char → Option (List BlockKind)
  | kinds, [] => some kinds
  | kinds, c :: cs => (openAfterChar kinds c).bind fun kinds => openAfter kinds cs

@[simp] theorem openAfterChar_opening (kinds : List BlockKind) (k : BlockKind) :
    openAfterChar kinds k.opening = some (k :: kinds) := by
  simp [openAfterChar]

@[simp] theorem openAfterChar_closing (kinds : List BlockKind) (k : BlockKind) :
    openAfterChar (k :: kinds) k.closing = some kinds := by
  rcases e : BlockKind.ofOpening? k.closing with - | l
  · simp [openAfterChar, e]
  · simp at e

theorem openAfterChar_of_plain (kinds : List BlockKind) {c : Char} (h : isBracket c = false) :
    openAfterChar kinds c = some kinds := by
  simp [openAfterChar, BlockKind.ofOpening?_of_isBracket h, h]

theorem openAfter_append (kinds : List BlockKind) (a b : List Char) :
    openAfter kinds (a ++ b) = (openAfter kinds a).bind fun kinds => openAfter kinds b := by
  induction a generalizing kinds with
  | nil => rfl
  | cons c a ih =>
    rw [List.cons_append, openAfter, openAfter]
    rcases openAfterChar kinds c with - | kinds'
    · rfl
    · exact ih kinds'

/-- A text without brackets opens and closes nothing. -/
theorem openAfter_of_plain (kinds : List BlockKind) {cs : List Char}
    (h : ∀ c ∈ cs, isBracket c = false) : openAfter kinds cs = some kinds := by
  induction cs with
  | nil => rfl
  | cons c cs ih =>
    rw [openAfter, openAfterChar_of_plain kinds (h c (by simp))]
    exact ih fun d hd => h d (by simp [hd])

/-- The text of a tree leaves open what was open. -/
theorem openAfter_text (kinds : List BlockKind) (t : Nested) :
    openAfter kinds t.text = some kinds := by
  induction t generalizing kinds with
  | nil => rfl
  | char c plain rest ih =>
    rw [Nested.text, openAfter, openAfterChar_of_plain kinds plain]
    exact ih kinds
  | block k body rest ihb ihr =>
    -- the body is read with the block open, and its closing bracket ends that
    rw [Nested.text, openAfter, openAfterChar_opening, Option.bind_some, openAfter_append, ihb,
      Option.bind_some, openAfter, openAfterChar_closing]
    exact ihr kinds

/-! ### The tree of a text -/

/-- The text is that of a tree, then the closing bracket of the innermost open block, then
again the text of a tree, and so on until all open blocks are closed. -/
inductive ClosesAll : List BlockKind → List Char → Prop
  | done (t : Nested) : ClosesAll [] t.text
  | close (t : Nested) {k : BlockKind} {kinds : List BlockKind} {cs : List Char} :
      ClosesAll kinds cs → ClosesAll (k :: kinds) (t.text ++ k.closing :: cs)

namespace ClosesAll

theorem cons_char {kinds : List BlockKind} {cs : List Char} {c : Char}
    (hc : isBracket c = false) (h : ClosesAll kinds cs) : ClosesAll kinds (c :: cs) := by
  cases h with
  | done t => exact .done (.char c hc t)
  | close t h => exact .close (.char c hc t) h

theorem cons_block {kinds : List BlockKind} {cs : List Char} (k : BlockKind)
    (h : ClosesAll (k :: kinds) cs) : ClosesAll kinds (k.opening :: cs) := by
  cases h with
  | close body h =>
    -- the first tree is the body of the new block, and the block goes in front of the next one
    cases h with
    | done t => exact .done (.block k body t)
    | @close t l outer cs h =>
      have e : k.opening :: (body.text ++ k.closing :: (t.text ++ l.closing :: cs))
          = (Nested.block k body t).text ++ l.closing :: cs := by
        simp [Nested.text]
      rw [e]
      exact .close (.block k body t) h

end ClosesAll

theorem closesAll_of_openAfter {kinds : List BlockKind} {cs : List Char}
    (h : openAfter kinds cs = some []) : ClosesAll kinds cs := by
  induction cs generalizing kinds with
  | nil =>
    obtain rfl := Option.some.inj h
    exact .done .nil
  | cons c cs ih =>
    rw [openAfter] at h
    rcases e : BlockKind.ofOpening? c with - | k
    · by_cases hb : isBracket c = true
      · -- a closing bracket: it must be that of the innermost block
        rcases kinds with - | ⟨k, outer⟩
        · simp [openAfterChar, e, hb] at h
        · by_cases hc : c = k.closing
          · subst hc
            rw [openAfterChar_closing] at h
            exact .close .nil (ih h)
          · simp [openAfterChar, e, hb, hc] at h
      · have plain : isBracket c = false := by simpa using hb
        rw [openAfterChar_of_plain kinds plain] at h
        exact .cons_char plain (ih h)
    · obtain rfl := BlockKind.opening_of_ofOpening? e
      rw [openAfterChar_opening] at h
      exact .cons_block k (ih h)

/-- **Matching brackets.**  Reading a text from the left closes every block that it opens, the
innermost first, exactly when the text is that of a tree. -/
theorem exists_nested_iff (cs : List Char) :
    (∃ t : Nested, t.text = cs) ↔ openAfter [] cs = some [] := by
  constructor
  · rintro ⟨t, rfl⟩
    exact openAfter_text [] t
  · intro h
    cases closesAll_of_openAfter h with
    | done t => exact ⟨t, rfl⟩

end ApiOutline
