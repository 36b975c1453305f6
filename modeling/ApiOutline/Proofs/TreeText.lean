/-
ApiOutline/Proofs/TreeText.lean

The nested text of a tree.

Design.  A tree is turned into a nested text first (`Core.nested` and the like),
in which the blocks are those of the tree, and which is written as the tree is
(`Item.text_nested`).  The parts of a tree are put together by `append` and
`joined`, so what is shown of these two carries over to all trees by recursion.

A written tree has neither a dollar sign nor a digit directly behind a closing
bracket (`Item.tidy_nested`): what follows a block is a default, a separator, a
bracket or nothing.  So no block of it is captured.
-/
import ApiOutline.Proofs.Grammar
import ApiOutline.Proofs.Resolution

namespace ApiOutline

open Sign

/-! ### Putting nested texts together -/

namespace Nested

/-- A text without brackets. -/
def ofChars : (cs : List Char) → (∀ c ∈ cs, Block.isBracket c = false) → Nested
  | [], _ => nil
  | c :: cs, h => char c (h c (by simp)) (ofChars cs fun d hd => h d (by simp [hd]))

/-- One nested text after the other. -/
def append : Nested → Nested → Nested
  | nil, t => t
  | char c plain rest, t => char c plain (rest.append t)
  | block k body rest, t => block k body (rest.append t)

/-- Nested texts with commas between them. -/
def joined : List Nested → Nested
  | [] => nil
  | [t] => t
  | t :: u :: ts => t.append (char ',' (by decide) (joined (u :: ts)))

variable {α : Type} (worth : BlockKind → List (Sign α) → α)

theorem text_ofChars {cs : List Char} (h : ∀ c ∈ cs, Block.isBracket c = false) :
    (ofChars cs h).text = cs := by
  induction cs with
  | nil => rfl
  | cons c cs ih => rw [ofChars, text, ih]

theorem signs_ofChars {cs : List Char} (h : ∀ c ∈ cs, Block.isBracket c = false) :
    (ofChars cs h).signs worth = cs.map .char := by
  induction cs with
  | nil => rfl
  | cons c cs ih => rw [ofChars, signs, ih, List.map_cons]

theorem text_append (t u : Nested) : (t.append u).text = t.text ++ u.text := by
  induction t with
  | nil => rfl
  | char c plain rest ih => rw [append, text, text, ih, List.cons_append]
  | block k body rest _ ih => simp [append, text, ih]

theorem signs_append (t u : Nested) :
    (t.append u).signs worth = t.signs worth ++ u.signs worth := by
  induction t with
  | nil => rfl
  | char c plain rest ih => rw [append, signs, signs, ih, List.cons_append]
  | block k body rest _ ih => rw [append, signs, signs, ih, List.cons_append]

theorem text_joined (ts : List Nested) : (joined ts).text = Text.join ',' (ts.map text) := by
  induction ts with
  | nil => rfl
  | cons t ts ih =>
    cases ts with
    | nil => rfl
    | cons u ts => rw [joined, text_append, text, ih]; rfl

end Nested

namespace Sign

/-- Joined texts come apart at the commas between them. -/
theorem pieces_joined {α : Type} (worth : BlockKind → List (Sign α) → α) {ts : List Nested}
    (hne : ts ≠ []) (h : ∀ t ∈ ts, hasChar ',' (t.signs worth) = false) :
    pieces ',' ((Nested.joined ts).signs worth) = ts.map (Nested.signs worth) := by
  induction ts with
  | nil => exact absurd rfl hne
  | cons t ts ih =>
    cases ts with
    | nil => exact pieces_of_hasChar (h t (by simp))
    | cons u ts =>
      rw [Nested.joined, Nested.signs_append, Nested.signs, pieces_append (h t (by simp)),
        ih (by simp) fun v hv => h v (by simp [hv])]
      rfl

end Sign

/-! ### The nested text of a tree -/

namespace Outline

theorem isBracket_of_isWordChar {c : Char} (h : isWordChar c = true) :
    Block.isBracket c = false := by
  simp only [isWordChar, Bool.and_eq_true, Bool.not_eq_true'] at h
  exact h.1.1.2

namespace Word

theorem isWordChar_of_mem (w : Word) {c : Char} (h : c ∈ w.chars) : isWordChar c = true :=
  List.all_eq_true.mp w.plain c h

theorem isBracket_chars (w : Word) : ∀ c ∈ w.chars, Block.isBracket c = false :=
  fun _ hc => isBracket_of_isWordChar (w.isWordChar_of_mem hc)

theorem not_mem_chars (w : Word) {c : Char} (h : isWordChar c = false) : c ∉ w.chars := by
  intro hc
  rw [w.isWordChar_of_mem hc] at h
  cases h

theorem comma_not_mem (w : Word) : ',' ∉ w.chars := w.not_mem_chars rfl

theorem dollar_not_mem (w : Word) : '$' ∉ w.chars := w.not_mem_chars rfl

end Word

theorem isBracket_markerText (m : Option Marker) :
    ∀ c ∈ markerText m, Block.isBracket c = false := by
  rcases m with - | m
  · simp [markerText]
  · cases m <;> simp [markerText, Block.isBracket]

theorem isBracket_defaultText (w : Word) :
    ∀ c ∈ defaultText w, Block.isBracket c = false := by
  intro c hc
  rw [defaultText] at hc
  split at hc
  · cases hc
  · rcases List.mem_cons.mp hc with rfl | hc
    · rfl
    · exact w.isBracket_chars c hc

/-- A marker as a nested text. -/
def markerNested (m : Option Marker) : Nested := .ofChars (markerText m) (isBracket_markerText m)

/-- A default as a nested text. -/
def defaultNested (w : Word) : Nested := .ofChars (defaultText w) (isBracket_defaultText w)

mutual

/-- A core as a nested text. -/
def Core.nested : Core → Nested
  | .tag name => .ofChars name.chars name.isBracket_chars
  | .object properties => .block .object (.joined (propertiesNested properties)) .nil
  | .array items => .block .array (.joined (itemsNested items)) .nil

/-- A value as a nested text. -/
def Value.nested : Value → Nested
  | .mk marker core default =>
    (markerNested marker).append (core.nested.append (defaultNested default))

/-- An item as a nested text. -/
def Item.nested : Item → Nested
  | .unnamed marker core => (markerNested marker).append core.nested
  | .named name value =>
    (Nested.ofChars name.chars name.isBracket_chars).append (.char ':' (by decide) value.nested)

/-- The properties of an object as nested texts. -/
def propertiesNested : List (Name × Value) → List Nested
  | [] => []
  | (name, value) :: properties =>
    (Nested.ofChars name.chars name.isBracket_chars).append (.char ':' (by decide) value.nested) ::
      propertiesNested properties

/-- The items of an array as nested texts. -/
def itemsNested : List Item → List Nested
  | [] => []
  | item :: items => item.nested :: itemsNested items

end

mutual

theorem Core.text_nested : (core : Core) → core.nested.text = core.text
  | .tag name => by rw [Core.nested, Nested.text_ofChars, Core.text]
  | .object properties => by
    rw [Core.nested, Nested.text, Nested.text_joined, texts_propertiesNested properties,
      Core.text]
    rfl
  | .array items => by
    rw [Core.nested, Nested.text, Nested.text_joined, texts_itemsNested items, Core.text]
    rfl

theorem Value.text_nested : (value : Value) → value.nested.text = value.text
  | .mk marker core default => by
    rw [Value.nested, Nested.text_append, Nested.text_append, Core.text_nested core,
      markerNested, defaultNested, Nested.text_ofChars, Nested.text_ofChars, Value.text]

/-- A tree as a nested text is written as the tree is. -/
theorem Item.text_nested : (item : Item) → item.nested.text = item.text
  | .unnamed marker core => by
    rw [Item.nested, Nested.text_append, Core.text_nested core, markerNested,
      Nested.text_ofChars, Item.text]
  | .named name value => by
    rw [Item.nested, Nested.text_append, Nested.text_ofChars, Nested.text,
      Value.text_nested value, Item.text]

theorem texts_propertiesNested :
    (properties : List (Name × Value)) →
      (propertiesNested properties).map Nested.text = propertyTexts properties
  | [] => rfl
  | (name, value) :: properties => by
    rw [propertiesNested, List.map_cons, Nested.text_append, Nested.text_ofChars, Nested.text,
      Value.text_nested value, texts_propertiesNested properties, propertyTexts]

theorem texts_itemsNested :
    (items : List Item) → (itemsNested items).map Nested.text = itemTexts items
  | [] => rfl
  | item :: items => by
    rw [itemsNested, List.map_cons, Item.text_nested item, texts_itemsNested items, itemTexts]

end

end Outline

/-! ### No block of a tree is captured -/

namespace Nested

/-- There is no dollar sign in the text, and no digit directly behind a block. -/
def tidy : Nested → Bool
  | nil => true
  | char c _ rest => c ≠ '$' && rest.tidy
  | block _ body rest => body.tidy && (rest.text.takeWhile Char.isDigit).isEmpty && rest.tidy

theorem not_mem_text_of_tidy {t : Nested} (h : t.tidy = true) : '$' ∉ t.text := by
  induction t with
  | nil => simp [text]
  | char c plain rest ih =>
    rw [tidy, Bool.and_eq_true, decide_eq_true_eq] at h
    simp [text, Ne.symm h.1, ih h.2]
  | block k body rest ihb ihr =>
    rw [tidy, Bool.and_eq_true, Bool.and_eq_true] at h
    cases k <;> simp [text, BlockKind.opening, BlockKind.closing, ihb h.1.1, ihr h.2]

theorem capturesFrom_of_tidy {t : Nested} (h : t.tidy = true) (total n : Nat) :
    t.capturesFrom total n = false := by
  induction t generalizing n with
  | nil => rfl
  | char c plain rest ih =>
    rw [tidy, Bool.and_eq_true] at h
    exact ih h.2 n
  | block k body rest ihb ihr =>
    rw [tidy, Bool.and_eq_true, Bool.and_eq_true] at h
    rw [capturesFrom, ihb h.1.1, ihr h.2, renumbers, h.1.2]
    rfl

theorem tidy_ofChars {cs : List Char} (h : ∀ c ∈ cs, Block.isBracket c = false)
    (hd : '$' ∉ cs) : (ofChars cs h).tidy = true := by
  induction cs with
  | nil => rfl
  | cons c cs ih =>
    simp only [List.mem_cons, not_or] at hd
    rw [ofChars, tidy, ih _ hd.2, decide_eq_true (Ne.symm hd.1)]
    rfl

theorem tidy_ofChars_append {cs : List Char} (h : ∀ c ∈ cs, Block.isBracket c = false)
    (hd : '$' ∉ cs) (t : Nested) : ((ofChars cs h).append t).tidy = t.tidy := by
  induction cs with
  | nil => rfl
  | cons c cs ih =>
    simp only [List.mem_cons, not_or] at hd
    rw [ofChars, append, tidy, ih _ hd.2, decide_eq_true (Ne.symm hd.1), Bool.true_and]

theorem tidy_append {t u : Nested} (ht : t.tidy = true) (hu : u.tidy = true)
    (hdigits : u.text.takeWhile Char.isDigit = []) : (t.append u).tidy = true := by
  induction t with
  | nil => exact hu
  | char c plain rest ih =>
    rw [tidy, Bool.and_eq_true] at ht
    rw [append, tidy, ht.1, ih ht.2]
    rfl
  | block k body rest _ ih =>
    rw [tidy, Bool.and_eq_true, Bool.and_eq_true] at ht
    -- behind the block stands the rest of the first text, or if that is empty the second one
    have hrest : ((rest.append u).text.takeWhile Char.isDigit).isEmpty = true := by
      rw [text_append]
      rcases hr : rest.text with - | ⟨c, cs⟩
      · rw [List.nil_append, hdigits]
        rfl
      · have hc := ht.1.2
        rw [hr, List.takeWhile_cons] at hc
        rw [List.cons_append, List.takeWhile_cons]
        split at hc
        · cases hc
        · rename_i hd
          rw [if_neg hd]
          rfl
    rw [append, tidy, ht.1.1, hrest, ih ht.2]
    rfl

theorem tidy_joined {ts : List Nested} (h : ∀ t ∈ ts, t.tidy = true) :
    (joined ts).tidy = true := by
  induction ts with
  | nil => rfl
  | cons t ts ih =>
    have hts : (joined ts).tidy = true := ih fun u hu => h u (by simp [hu])
    cases ts with
    | nil => exact h t (by simp)
    | cons u ts =>
      refine tidy_append (h t (by simp)) ?_ rfl
      rw [tidy, hts]
      rfl

end Nested

namespace Outline

theorem mem_markerText {marker : Option Marker} {c : Char} (h : c ∈ markerText marker) :
    c = '?' ∨ c = '+' := by
  rcases marker with - | m
  · cases h
  · cases m <;> simp_all [markerText]

theorem takeWhile_defaultText (default : Word) :
    (defaultText default).takeWhile Char.isDigit = [] := by
  rw [defaultText]
  split <;> rfl

theorem not_mem_markerText (marker : Option Marker) : '$' ∉ markerText marker := by
  intro h
  rcases mem_markerText h with h | h <;> cases h

theorem not_mem_defaultText (default : Word) : '$' ∉ defaultText default := by
  intro h
  rw [defaultText] at h
  split at h
  · cases h
  · rcases List.mem_cons.mp h with h | h
    · cases h
    · exact default.dollar_not_mem h

mutual

theorem Core.tidy_nested : (core : Core) → core.nested.tidy = true
  | .tag name => by
    rw [Core.nested]
    exact Nested.tidy_ofChars _ name.dollar_not_mem
  | .object properties => by
    rw [Core.nested, Nested.tidy, Nested.tidy_joined (tidy_propertiesNested properties)]
    rfl
  | .array items => by
    rw [Core.nested, Nested.tidy, Nested.tidy_joined (tidy_itemsNested items)]
    rfl

theorem Value.tidy_nested : (value : Value) → value.nested.tidy = true
  | .mk marker core default => by
    have hdefault : (defaultNested default).tidy = true :=
      Nested.tidy_ofChars _ (not_mem_defaultText default)
    rw [Value.nested, markerNested,
      Nested.tidy_ofChars_append _ (not_mem_markerText marker)]
    refine Nested.tidy_append (Core.tidy_nested core) hdefault ?_
    rw [defaultNested, Nested.text_ofChars, takeWhile_defaultText]

/-- In a written tree no digit stands directly behind a block. -/
theorem Item.tidy_nested : (item : Item) → item.nested.tidy = true
  | .unnamed marker core => by
    rw [Item.nested, markerNested, Nested.tidy_ofChars_append _ (not_mem_markerText marker)]
    exact Core.tidy_nested core
  | .named name value => by
    rw [Item.nested, Nested.tidy_ofChars_append _ name.dollar_not_mem, Nested.tidy,
      Value.tidy_nested value]
    rfl

theorem tidy_propertiesNested :
    (properties : List (Name × Value)) → ∀ t ∈ propertiesNested properties, t.tidy = true
  | [] => by simp [propertiesNested]
  | (name, value) :: properties => by
    rw [propertiesNested]
    refine List.forall_mem_cons.mpr ⟨?_, tidy_propertiesNested properties⟩
    rw [Nested.tidy_ofChars_append _ name.dollar_not_mem, Nested.tidy, Value.tidy_nested value]
    rfl

theorem tidy_itemsNested : (items : List Item) → ∀ t ∈ itemsNested items, t.tidy = true
  | [] => by simp [itemsNested]
  | item :: items => by
    rw [itemsNested]
    exact List.forall_mem_cons.mpr ⟨Item.tidy_nested item, tidy_itemsNested items⟩

end

end Outline

end ApiOutline
