/-
ApiOutline/Proofs/Sign.lean

Nested texts seen from above: characters, and blocks that are one sign each.

Design.  A separator inside a block does not separate anything outside it, so
the texts of an outline are cut as rows of signs.  What a block is worth is left
open: `Nested.signs` computes it from the signs of its body, so that a property
of nested texts is given by what it says of one row, and no recursion has to be
written for it.

Written out with `spell`, a row is an ordinary text.  Main results: cutting
respects spelling (`cut_spell`, `pieces_spell`), as long as the separator is not
in what stands for a block, and it respects a change of the worth of the blocks
(`cut_map`, `pieces_map`).
-/
import ApiOutline.Proofs.Nesting
import ApiOutline.Shape.TypeName

namespace ApiOutline

universe u v

/-- A character, or a block of which only its worth is known. -/
inductive Sign (α : Type u) where
  | char (c : Char)
  | block (a : α)
deriving Repr

/-- The signs of a text, the worth of a block being computed from its kind and the signs of its
body. -/
def Nested.signs {α : Type u} (worth : BlockKind → List (Sign α) → α) : Nested → List (Sign α)
  | nil => []
  | char c _ rest => .char c :: rest.signs worth
  | block k body rest => .block (worth k (body.signs worth)) :: rest.signs worth

namespace Sign

variable {α : Type u} {β : Type v}

/-- The sign is the given character. -/
def isChar (c : Char) : Sign α → Bool
  | char d => d = c
  | block _ => false

/-- The sign with another worth of its block. -/
def map (f : α → β) : Sign α → Sign β
  | char c => char c
  | block a => block (f a)

@[simp] theorem isChar_char (c d : Char) : (char d : Sign α).isChar c = decide (d = c) := rfl

@[simp] theorem isChar_block (c : Char) (a : α) : (block a).isChar c = false := rfl

@[simp] theorem map_char (f : α → β) (c : Char) : (char c).map f = char c := rfl

@[simp] theorem map_block (f : α → β) (a : α) : (block a).map f = block (f a) := rfl

@[simp] theorem isChar_map (f : α → β) (c : Char) (s : Sign α) :
    (s.map f).isChar c = s.isChar c := by
  cases s <;> rfl

/-! ### Rows of signs -/

/-- The row has the given character. -/
def hasChar (c : Char) (ss : List (Sign α)) : Bool := ss.any (isChar c)

theorem hasChar_cons (c : Char) (s : Sign α) (ss : List (Sign α)) :
    hasChar c (s :: ss) = (s.isChar c || hasChar c ss) := rfl

/-- The row has a block. -/
def hasBlock : List (Sign α) → Bool
  | [] => false
  | char _ :: ss => hasBlock ss
  | block _ :: _ => true

/-- The text of a row without blocks. -/
def chars? : List (Sign α) → Option (List Char)
  | [] => some []
  | char c :: ss => (chars? ss).map (c :: ·)
  | block _ :: _ => none

/-- The row before the first separator and the row after it; without a separator all the row and
nothing. -/
def cut (sep : Char) : List (Sign α) → List (Sign α) × List (Sign α)
  | [] => ([], [])
  | s :: ss => if s.isChar sep then ([], ss) else (s :: (cut sep ss).1, (cut sep ss).2)

/-- The row without what stands in front of its first separator, which is dropped too. -/
def after (sep : Char) (ss : List (Sign α)) : List (Sign α) :=
  if hasChar sep ss then (cut sep ss).2 else ss

/-- The rows between the separators. -/
def pieces (sep : Char) : List (Sign α) → List (List (Sign α))
  | [] => [[]]
  | s :: ss =>
    if s.isChar sep then [] :: pieces sep ss
    else
      match pieces sep ss with
      | [] => [[s]]
      | p :: ps => (s :: p) :: ps

/-- The marker in front of a row, and the row after it. -/
def splitMarker : List (Sign α) → Option Marker × List (Sign α)
  | char c :: ss =>
    match Marker.ofChar? c with
    | some m => (some m, ss)
    | none => (none, char c :: ss)
  | ss => (none, ss)

/-- The row as a text, with a text for each block. -/
def spell (word : α → List Char) : List (Sign α) → List Char
  | [] => []
  | char c :: ss => c :: spell word ss
  | block a :: ss => word a ++ spell word ss

/-! ### Rows without blocks -/

theorem chars?_eq_none_iff (ss : List (Sign α)) : chars? ss = none ↔ hasBlock ss = true := by
  induction ss with
  | nil => simp [chars?, hasBlock]
  | cons s ss ih =>
    cases s with
    | char c => simpa [chars?, hasBlock] using ih
    | block a => simp [chars?, hasBlock]

theorem chars?_map_char (cs : List Char) : chars? (cs.map (char (α := α))) = some cs := by
  induction cs with
  | nil => rfl
  | cons c cs ih => rw [List.map_cons, chars?, ih]; rfl

theorem eq_map_char_of_chars? {ss : List (Sign α)} {cs : List Char} (h : chars? ss = some cs) :
    ss = cs.map char := by
  induction ss generalizing cs with
  | nil =>
    obtain rfl := Option.some.inj h
    rfl
  | cons s ss ih =>
    cases s with
    | char c =>
      obtain ⟨ds, hds, rfl⟩ := Option.map_eq_some_iff.mp h
      rw [List.map_cons, ih hds]
    | block a => cases h

theorem chars?_map (f : α → β) (ss : List (Sign α)) : chars? (ss.map (map f)) = chars? ss := by
  induction ss with
  | nil => rfl
  | cons s ss ih =>
    cases s with
    | char c => simp only [List.map_cons, map_char, chars?, ih]
    | block a => rfl

/-! ### Cutting and the worth of blocks -/

theorem hasChar_map (f : α → β) (c : Char) (ss : List (Sign α)) :
    hasChar c (ss.map (map f)) = hasChar c ss := by
  simp [hasChar, Function.comp_def]

theorem cut_map (f : α → β) (sep : Char) (ss : List (Sign α)) :
    cut sep (ss.map (map f)) = ((cut sep ss).1.map (map f), (cut sep ss).2.map (map f)) := by
  induction ss with
  | nil => rfl
  | cons s ss ih =>
    rw [List.map_cons, cut, cut, isChar_map, ih]
    rcases s.isChar sep with - | - <;> rfl

theorem after_map (f : α → β) (sep : Char) (ss : List (Sign α)) :
    after sep (ss.map (map f)) = (after sep ss).map (map f) := by
  rw [after, after, hasChar_map, cut_map]
  split <;> rfl

theorem cut_of_hasChar {sep : Char} {ss : List (Sign α)} (h : hasChar sep ss = false) :
    cut sep ss = (ss, []) := by
  induction ss with
  | nil => rfl
  | cons s ss ih =>
    rw [hasChar_cons, Bool.or_eq_false_iff] at h
    rw [cut, h.1, ih h.2]
    rfl

theorem pieces_ne_nil (sep : Char) (ss : List (Sign α)) : pieces sep ss ≠ [] := by
  cases ss with
  | nil => simp [pieces]
  | cons s ss =>
    unfold pieces
    split
    · simp
    · split <;> simp

theorem pieces_map (f : α → β) (sep : Char) (ss : List (Sign α)) :
    pieces sep (ss.map (map f)) = (pieces sep ss).map (List.map (map f)) := by
  induction ss with
  | nil => rfl
  | cons s ss ih =>
    rw [List.map_cons, pieces, pieces, isChar_map, ih]
    rcases s.isChar sep with - | -
    · rcases hp : pieces sep ss with - | ⟨p, ps⟩
      · exact absurd hp (pieces_ne_nil sep ss)
      · simp
    · simp

theorem splitMarker_map (f : α → β) (ss : List (Sign α)) :
    splitMarker (ss.map (map f)) = ((splitMarker ss).1, (splitMarker ss).2.map (map f)) := by
  rcases ss with - | ⟨s, ss⟩
  · rfl
  · cases s with
    | char c =>
      rcases e : Marker.ofChar? c with - | m <;> simp [splitMarker, e]
    | block a => rfl

/-! ### Putting rows together -/

theorem hasChar_append (c : Char) (a b : List (Sign α)) :
    hasChar c (a ++ b) = (hasChar c a || hasChar c b) := by
  simp [hasChar]

theorem hasChar_map_char {c : Char} {cs : List Char} (h : c ∉ cs) :
    hasChar c (cs.map (char (α := α))) = false := by
  induction cs with
  | nil => rfl
  | cons d cs ih =>
    simp only [List.mem_cons, not_or] at h
    rw [List.map_cons, hasChar_cons, ih h.2, isChar_char]
    simpa using Ne.symm h.1

theorem cut_append {a : List (Sign α)} (h : hasChar sep a = false) (b : List (Sign α)) :
    cut sep (a ++ .char sep :: b) = (a, b) := by
  induction a with
  | nil => simp [cut]
  | cons s a ih =>
    rw [hasChar_cons, Bool.or_eq_false_iff] at h
    rw [List.cons_append, cut, h.1, ih h.2]
    rfl

theorem pieces_append {a : List (Sign α)} (h : hasChar sep a = false) (b : List (Sign α)) :
    pieces sep (a ++ .char sep :: b) = a :: pieces sep b := by
  induction a with
  | nil => simp [pieces]
  | cons s a ih =>
    rw [hasChar_cons, Bool.or_eq_false_iff] at h
    rw [List.cons_append, pieces, h.1, ih h.2]
    rfl

theorem pieces_of_hasChar {ss : List (Sign α)} (h : hasChar sep ss = false) :
    pieces sep ss = [ss] := by
  induction ss with
  | nil => rfl
  | cons s ss ih =>
    rw [hasChar_cons, Bool.or_eq_false_iff] at h
    rw [pieces, h.1, ih h.2]
    rfl

theorem hasChar_cut (sep : Char) (ss : List (Sign α)) : hasChar sep (cut sep ss).1 = false := by
  induction ss with
  | nil => rfl
  | cons s ss ih =>
    rw [cut]
    split
    · rfl
    · rename_i hs
      rw [hasChar_cons, ih, Bool.or_false]
      exact Bool.eq_false_iff.mpr hs

theorem eq_cut_of_hasChar {ss : List (Sign α)} (h : hasChar sep ss = true) :
    ss = (cut sep ss).1 ++ .char sep :: (cut sep ss).2 := by
  induction ss with
  | nil => cases h
  | cons s ss ih =>
    rw [cut]
    rcases hs : s.isChar sep with - | -
    · rw [hasChar_cons, hs, Bool.false_or] at h
      exact congrArg (s :: ·) (ih h)
    · -- only a character is a separator
      cases s with
      | char c =>
        obtain rfl : c = sep := by simpa using hs
        rfl
      | block a => cases hs

theorem mem_of_mem_cut {s : Sign α} {ss : List (Sign α)}
    (h : s ∈ (cut sep ss).1 ∨ s ∈ (cut sep ss).2) : s ∈ ss := by
  rcases hc : hasChar sep ss with - | -
  · rw [cut_of_hasChar hc] at h
    simpa using h
  · rw [eq_cut_of_hasChar hc, List.mem_append]
    exact h.imp id (List.mem_cons_of_mem _)

theorem mem_of_mem_pieces {s : Sign α} {ss p : List (Sign α)} (hp : p ∈ pieces sep ss)
    (hs : s ∈ p) : s ∈ ss := by
  induction ss generalizing p with
  | nil =>
    obtain rfl := List.mem_singleton.mp hp
    cases hs
  | cons t ss ih =>
    rw [pieces] at hp
    split at hp
    · rcases List.mem_cons.mp hp with rfl | hp
      · cases hs
      · exact List.mem_cons_of_mem _ (ih hp hs)
    · -- the sign belongs to the first piece
      rcases hps : pieces sep ss with - | ⟨q, qs⟩
      · exact absurd hps (pieces_ne_nil sep ss)
      · rw [hps] at hp ih
        rcases List.mem_cons.mp hp with rfl | hp
        · rcases List.mem_cons.mp hs with rfl | hs
          · exact List.mem_cons_self
          · exact List.mem_cons_of_mem _ (ih List.mem_cons_self hs)
        · exact List.mem_cons_of_mem _ (ih (List.mem_cons_of_mem _ hp) hs)

theorem mem_of_mem_splitMarker {s : Sign α} {ss : List (Sign α)} (h : s ∈ (splitMarker ss).2) :
    s ∈ ss := by
  rcases ss with - | ⟨t, ss⟩
  · exact h
  · cases t with
    | char c =>
      rw [splitMarker] at h
      split at h
      · exact List.mem_cons_of_mem _ h
      · exact h
    | block a => exact h

theorem hasBlock_eq_false_iff (ss : List (Sign α)) :
    hasBlock ss = false ↔ ∀ a, .block a ∉ ss := by
  induction ss with
  | nil => simp [hasBlock]
  | cons s ss ih =>
    cases s with
    | char c => simpa [hasBlock] using ih
    | block a =>
      constructor
      · intro h
        cases h
      · intro h
        exact absurd List.mem_cons_self (h a)

theorem hasBlock_map (f : α → β) (ss : List (Sign α)) :
    hasBlock (ss.map (map f)) = hasBlock ss := by
  induction ss with
  | nil => rfl
  | cons s ss ih => cases s <;> simp [hasBlock, ih]

theorem hasBlock_of_chars? {ss : List (Sign α)} {cs : List Char} (h : chars? ss = some cs) :
    hasBlock ss = false := by
  rcases hb : hasBlock ss with - | -
  · rfl
  · rw [(chars?_eq_none_iff ss).mpr hb] at h
    cases h

/-! ### Cutting and spelling -/

section Spell

variable {word : α → List Char} {sep : Char} (hw : ∀ a, sep ∉ word a)

theorem spell_map_char (cs : List Char) : spell word (cs.map char) = cs := by
  induction cs with
  | nil => rfl
  | cons c cs ih => rw [List.map_cons, spell, ih]

theorem spell_of_chars? {ss : List (Sign α)} {cs : List Char} (h : chars? ss = some cs) :
    spell word ss = cs := by
  rw [eq_map_char_of_chars? h, spell_map_char]

include hw

theorem mem_spell_iff (ss : List (Sign α)) : sep ∈ spell word ss ↔ hasChar sep ss = true := by
  induction ss with
  | nil => simp [spell, hasChar]
  | cons s ss ih =>
    cases s with
    | char c => rw [spell, List.mem_cons, ih, hasChar_cons, isChar_char, Bool.or_eq_true,
        decide_eq_true_eq, eq_comm]
    | block a => rw [spell, List.mem_append, ih, hasChar_cons, isChar_block, Bool.false_or,
        or_iff_right (hw a)]

theorem cut_spell (ss : List (Sign α)) :
    Text.cut sep (spell word ss) = (spell word (cut sep ss).1, spell word (cut sep ss).2) := by
  induction ss with
  | nil => rfl
  | cons s ss ih =>
    cases s with
    | char c =>
      by_cases h : c = sep
      · simp [spell, Text.cut, cut, h]
      · simp [spell, Text.cut, cut, h, ih]
    | block a =>
      rw [spell, Text.cut_append_left (hw a), ih]
      simp [cut, spell]

theorem after_spell (ss : List (Sign α)) :
    (if sep ∈ spell word ss then (Text.cut sep (spell word ss)).2 else spell word ss)
      = spell word (after sep ss) := by
  rw [after, cut_spell hw]
  rcases hc : hasChar sep ss with - | -
  · have hn : sep ∉ spell word ss := by
      rw [mem_spell_iff hw, hc]
      simp
    rw [if_neg hn]
    rfl
  · rw [if_pos ((mem_spell_iff hw ss).mpr hc)]
    rfl

theorem pieces_spell (ss : List (Sign α)) :
    Text.pieces sep (spell word ss) = (pieces sep ss).map (spell word) := by
  induction ss with
  | nil => rfl
  | cons s ss ih =>
    cases s with
    | char c =>
      by_cases h : c = sep
      · simp [spell, Text.pieces, pieces, h, ih]
      · rcases hp : pieces sep ss with - | ⟨p, ps⟩
        · exact absurd hp (pieces_ne_nil sep ss)
        · simp [spell, Text.pieces, pieces, h, ih, hp]
    | block a =>
      rcases hp : pieces sep ss with - | ⟨p, ps⟩
      · exact absurd hp (pieces_ne_nil sep ss)
      · rw [hp] at ih
        rw [spell, Text.pieces_append_left (hw a) ih]
        simp [pieces, hp, spell]

end Spell

end Sign

end ApiOutline
