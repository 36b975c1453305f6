/-
ApiOutline/Proofs/Resolution.lean

Resolving the texts left when the blocks are out, and reading the nested text.

Design.  After the blocks are out, a row of signs is known to the compiler by
its spelling only: a block is spelled by its placeholder.  A tag is then read
anew, so that a block followed by digits is spelled like the placeholder of some
other block, if there are enough blocks; the text `captures` a block in that
case.  In a text without dollar signs nothing else can go wrong.

The invariant is `Clean`: every block of the row has in the table what it was
read from, resolving that agrees with the reading, and the digits behind the
block capture nothing.  It passes from a row to what is cut out of it.

Main result: without a capture, compiling agrees with reading
(`compileSource_agrees_reading`); in particular no reference leads astray or in
a circle.
-/
import ApiOutline.Proofs.Lookup
import ApiOutline.Proofs.Numbering
import ApiOutline.Proofs.Reading
import Mathlib

namespace ApiOutline

/-! ### Digits behind a block -/

/-- The digits behind the placeholder of block `m` make it the placeholder of another block. -/
def renumbers (total m : Nat) (digits : List Char) : Bool :=
  !digits.isEmpty && (List.range total).any fun j =>
    decide (Block.placeholder j = Block.placeholder m ++ digits)

theorem ne_placeholder_of_renumbers {total m : Nat} {digits : List Char}
    (h : renumbers total m digits = false) (hne : digits ≠ []) :
    ∀ j < total, Block.placeholder j ≠ Block.placeholder m ++ digits := by
  intro j hj e
  have h' : renumbers total m digits = true := by
    simp only [renumbers, Bool.and_eq_true, List.any_eq_true, decide_eq_true_eq]
    exact ⟨by simpa using hne, j, List.mem_range.mpr hj, e⟩
  rw [h] at h'
  cases h'

/-- Some block of the text is followed by digits that make its placeholder that of another one of
`total` blocks; `n` blocks stand before the text. -/
def Nested.capturesFrom (total n : Nat) : Nested → Bool
  | nil => false
  | char _ _ rest => rest.capturesFrom total n
  | block _ body rest =>
    body.capturesFrom total n ||
      renumbers total (n + body.size) (rest.text.takeWhile Char.isDigit) ||
      rest.capturesFrom total (n + body.size + 1)

/-- Some block of the text is followed by digits that make its placeholder that of another
block. -/
def Nested.captures (t : Nested) : Bool := t.capturesFrom t.size 0

/-! ### Agreement -/

/-- The flaw behind a stop; a block inside itself is no flaw of the text. -/
def Shape.Stop.flaw? : Shape.Stop → Option Flaw
  | .defect (.literal f) => some (.literal f)
  | .defect _ => some .form
  | .selfReference => none

theorem Shape.Stop.eq_of_flaw?_literal {s : Shape.Stop} {f : LiteralFault}
    (h : s.flaw? = some (.literal f)) : s = .defect (.literal f) := by
  unfold flaw? at h
  split at h
  · obtain rfl := Flaw.literal.inj (Option.some.inj h)
    rfl
  · cases h
  · cases h

namespace Shape

/-- The outcome is the reading, but for the wording of complaints. -/
def Agrees {α : Type} (x : Outcome α) (r : Except Flaw α) : Prop :=
  x.result.mapError Stop.flaw? = r.mapError some

namespace Agrees

variable {α β : Type} {x : Outcome α} {r : Except Flaw α}

theorem ok_iff {a : α} : Agrees x (.ok a) ↔ x.result = .ok a := by
  unfold Agrees
  rcases e : x.result with s | b <;> simp [Except.mapError]

theorem error_iff {f : Flaw} :
    Agrees x (.error f) ↔ ∃ s, x.result = .error s ∧ s.flaw? = some f := by
  unfold Agrees
  rcases e : x.result with s | b <;> simp [Except.mapError]

theorem of_result {y : Outcome α} (h : x.result = y.result) (hy : Agrees y r) : Agrees x r := by
  unfold Agrees at hy ⊢
  rw [h, hy]

theorem ne_selfReference (h : Agrees x r) : x.result ≠ .error .selfReference := by
  intro e
  rcases r with f | a
  · obtain ⟨s, hs, hf⟩ := error_iff.mp h
    rw [e] at hs
    obtain rfl := Except.error.inj hs
    cases hf
  · rw [ok_iff.mp h] at e
    cases e

/-- Agreement is kept by sequencing. -/
theorem bind {f : α → Outcome β} {g : α → Except Flaw β} (hx : Agrees x r)
    (hf : ∀ a, r = .ok a → Agrees (f a) (g a)) : Agrees (x >>= f) (r >>= g) := by
  rcases r with e | a
  · obtain ⟨s, hs, hsf⟩ := error_iff.mp hx
    refine error_iff.mpr ⟨s, ?_, hsf⟩
    rw [Traced.result_bind, hs]
    rfl
  · refine of_result ?_ (hf a rfl)
    rw [Traced.result_bind, ok_iff.mp hx]
    rfl

/-- A rejection agrees with a flaw of form. -/
theorem reject {d : Defect} (hd : Stop.flaw? (.defect d) = some .form) :
    Agrees (reject d : Outcome α) (.error .form) :=
  error_iff.mpr ⟨.defect d, rfl, hd⟩

end Agrees

/-! ### Clean rows -/

open Block Sign

/-- A block in a row: its number, and what was read from it. -/
abbrev Numbered := Nat × Reading

/-- The text that is left of a row. -/
abbrev word (x : Numbered) : List Char := placeholder x.1

/-- The readings of a row. -/
abbrev readings (ss : List (Sign Numbered)) : List (Sign Reading) := ss.map (Sign.map Prod.snd)

section Clean

variable (blocks : List Block) (inner : Block → Outcome Schema)

/-- There is no dollar sign in the row; each block is in the table, resolving it agrees with its
reading, and the digits behind it make its placeholder that of no other block. -/
def Clean : List (Sign Numbered) → Prop
  | [] => True
  | .char c :: ss => c ≠ '$' ∧ Clean ss
  | .block (m, r) :: ss =>
    (∃ b, blocks[m]? = some b ∧ Agrees (inner b) r) ∧
      renumbers blocks.length m ((spell word ss).takeWhile Char.isDigit) = false ∧ Clean ss

variable {blocks inner} {ss : List (Sign Numbered)} {sep : Char}

theorem isDigit_separator (hs : sep = ':' ∨ sep = ',') : sep.isDigit = false := by
  rcases hs with rfl | rfl <;> rfl

theorem not_mem_word (hs : sep = ':' ∨ sep = ',') (x : Numbered) : sep ∉ word x := by
  have hd : sep ≠ '$' := by rcases hs with rfl | rfl <;> simp
  exact not_mem_placeholder hd (isDigit_separator hs) x.1

theorem Clean.cut (hs : sep = ':' ∨ sep = ',') (h : Clean blocks inner ss) :
    Clean blocks inner (cut sep ss).1 ∧ Clean blocks inner (cut sep ss).2 := by
  induction ss with
  | nil => exact ⟨trivial, trivial⟩
  | cons s ss ih =>
    cases s with
    | char c =>
      obtain ⟨hc, h⟩ := h
      rw [Sign.cut, isChar_char]
      split
      · exact ⟨trivial, h⟩
      · exact ⟨⟨hc, (ih h).1⟩, (ih h).2⟩
    | block x =>
      obtain ⟨hb, hr, h⟩ := h
      -- the digits behind the block are in front of the separator
      refine ⟨⟨hb, ?_, (ih h).1⟩, (ih h).2⟩
      have e : Sign.spell word (Sign.cut sep ss).1 = (Text.cut sep (spell word ss)).1 := by
        rw [cut_spell (not_mem_word hs)]
      rw [e, Text.takeWhile_cut (isDigit_separator hs), hr]

theorem Clean.pieces (hs : sep = ':' ∨ sep = ',') (h : Clean blocks inner ss) :
    ∀ p ∈ pieces sep ss, Clean blocks inner p := by
  induction ss with
  | nil =>
    intro p hp
    obtain rfl := List.mem_singleton.mp hp
    trivial
  | cons s ss ih =>
    rcases hps : Sign.pieces sep ss with - | ⟨q, qs⟩
    · exact absurd hps (pieces_ne_nil sep ss)
    · cases s with
      | char c =>
        obtain ⟨hc, h⟩ := h
        rw [hps] at ih
        rw [Sign.pieces, isChar_char, hps]
        intro p hp
        split at hp
        · rcases List.mem_cons.mp hp with rfl | hp
          · trivial
          · exact ih h p hp
        · rcases List.mem_cons.mp hp with rfl | hp
          · exact ⟨hc, ih h q (by simp)⟩
          · exact ih h p (by simp [hp])
      | block x =>
        obtain ⟨hb, hr, h⟩ := h
        have e : Text.pieces sep (spell word ss) = spell word q :: qs.map (spell word) := by
          rw [pieces_spell (not_mem_word hs), hps, List.map_cons]
        rw [hps] at ih
        rw [Sign.pieces, isChar_block, hps]
        intro p hp
        rcases List.mem_cons.mp hp with rfl | hp
        · refine ⟨hb, ?_, ih h q (by simp)⟩
          rw [Text.takeWhile_pieces (isDigit_separator hs) e, hr]
        · exact ih h p (by simp [hp])

theorem Clean.splitMarker (h : Clean blocks inner ss) :
    Clean blocks inner (splitMarker ss).2 := by
  rcases ss with - | ⟨s, ss⟩
  · trivial
  · cases s with
    | char c =>
      rcases e : Marker.ofChar? c with - | m
      · simpa [Sign.splitMarker, e] using h
      · simpa [Sign.splitMarker, e] using h.2
    | block x => exact h

/-! ### The parts of a value -/

theorem Clean.mentionsPlaceholder_spell (h : Clean blocks inner ss) :
    mentionsPlaceholder (spell word ss) = hasBlock ss := by
  induction ss with
  | nil => rfl
  | cons s ss ih =>
    cases s with
    | char c =>
      obtain ⟨hc, h⟩ := h
      rw [hasBlock, ← ih h, spell]
      rcases e : spell word ss with - | ⟨d, ds⟩
      · rfl
      · simp [mentionsPlaceholder, hc]
    | block x => rw [spell, mentionsPlaceholder_placeholder, hasBlock]

/-- A row that is spelled like a reference is a block with digits behind it. -/
theorem Clean.eq_block_of_isReference (h : Clean blocks inner ss)
    (hr : isReference (spell word ss) = true) :
    ∃ x ss', ss = .block x :: ss' ∧ ∀ d ∈ spell word ss', d.isDigit = true := by
  obtain ⟨ds, e, -, hds⟩ := isReference_iff.mp hr
  rcases ss with - | ⟨s, ss⟩
  · cases e
  · cases s with
    | char c =>
      rw [spell] at e
      exact absurd (List.cons.inj e).1 h.1
    | block x =>
      refine ⟨x, ss, rfl, fun d hd => hds d ?_⟩
      have he : '$' :: (Nat.toDigits 10 x.1 ++ spell word ss) = '$' :: ds := e
      rw [← (List.cons.inj he).2]
      exact List.mem_append_right _ hd

/-- Looking up a row that is a block by itself gives that block. -/
theorem Clean.result_block?_sole {x : Numbered} (h : Clean blocks inner [.block x]) :
    ∃ b, (block? blocks (spell word [.block x])).result = .ok (some b) ∧
      Agrees (inner b) x.2 := by
  obtain ⟨⟨b, hb, hi⟩, -⟩ := h
  refine ⟨b, ?_, hi⟩
  rw [spell, spell, List.append_nil]
  exact result_block?_placeholder hb

/-- Looking up any other row gives no block, or a complaint if the row is a block and digits. -/
theorem Clean.result_block?_of_sole? (h : Clean blocks inner ss) (hs : sole? ss = none) :
    (block? blocks (spell word ss)).result = .ok none ∨
      (∃ t, (block? blocks (spell word ss)).result = .error (.defect (.unknownPlaceholder t))) ∧
        (∃ x ss', ss = .block x :: ss') ∧ hasChar ':' ss = false := by
  rcases hr : isReference (spell word ss) with - | -
  · exact .inl (result_block?_of_not_isReference hr)
  · -- a block and digits, which by cleanness is the placeholder of no block
    right
    obtain ⟨x, ss', rfl, hd⟩ := h.eq_block_of_isReference hr
    have hne : spell word ss' ≠ [] := by
      intro e
      rcases ss' with - | ⟨s, ss'⟩
      · cases hs
      · cases s <;> simp [spell, word, placeholder] at e
    have hall : (spell word ss').takeWhile Char.isDigit = spell word ss' := by
      rw [← List.append_nil (spell word ss'), List.takeWhile_append_of_pos hd]
      rfl
    have hfree : ∀ j < blocks.length, placeholder j ≠ spell word (.block x :: ss') := by
      have hn := h.2.1
      rw [hall] at hn
      exact ne_placeholder_of_renumbers hn hne
    refine ⟨⟨_, result_block?_of_unknown hr hfree⟩, ⟨x, ss', rfl⟩, ?_⟩
    rcases hc : hasChar ':' (.block x :: ss') with - | -
    · rfl
    · rw [hasChar_cons, isChar_block, Bool.false_or,
        ← mem_spell_iff (not_mem_word (.inl rfl))] at hc
      exact absurd (hd ':' hc) (by decide)

/-- A row with a block is not empty, and mentions a placeholder. -/
theorem Clean.spell_of_chars?_none (h : Clean blocks inner ss) (hc : chars? ss = none) :
    spell word ss ≠ [] ∧ mentionsPlaceholder (spell word ss) = true := by
  have hm : mentionsPlaceholder (spell word ss) = true := by
    rw [h.mentionsPlaceholder_spell]
    exact (chars?_eq_none_iff ss).mp hc
  refine ⟨?_, hm⟩
  intro e
  rw [e] at hm
  cases hm

/-- A row without blocks mentions no placeholder. -/
theorem Clean.spell_of_chars?_some (h : Clean blocks inner ss) {cs : List Char}
    (hc : chars? ss = some cs) :
    spell word ss = cs ∧ mentionsPlaceholder (spell word ss) = false := by
  refine ⟨spell_of_chars? hc, ?_⟩
  rw [h.mentionsPlaceholder_spell]
  rcases hb : hasBlock ss with - | -
  · rfl
  · rw [(chars?_eq_none_iff ss).mpr hb] at hc
    cases hc

theorem Clean.agrees_typeOf (h : Clean blocks inner ss) (hs : sole? ss = none) :
    Agrees (do let t ← typeOf (spell word ss); pure (Schema.plain t {}))
      (readTag (readings ss)) := by
  rw [readTag, sole?_map, hs, Option.map_none, chars?_map]
  rcases hc : chars? ss with - | name
  · obtain ⟨hne, hm⟩ := h.spell_of_chars?_none hc
    rw [typeOf, if_neg hne, if_pos hm]
    exact Agrees.reject rfl
  · obtain ⟨e, hm⟩ := h.spell_of_chars?_some hc
    rw [e] at hm ⊢
    refine Agrees.ok_iff.mpr ?_
    rw [typeOf]
    split
    · rename_i he
      subst he
      rfl
    · rw [if_neg (by simp [hm])]
      rcases TypeName.ofTag? name with - | t <;> rfl

theorem Clean.agrees_exampleOf (h : Clean blocks inner ss) (type : TypeName) :
    Agrees (exampleOf type (spell word ss)) (readExample type (readings ss)) := by
  rw [readExample, chars?_map]
  rcases hc : chars? ss with - | literal
  · obtain ⟨hne, hm⟩ := h.spell_of_chars?_none hc
    rw [exampleOf, if_neg hne, if_pos hm]
    exact Agrees.reject rfl
  · obtain ⟨e, hm⟩ := h.spell_of_chars?_some hc
    rw [e] at hm ⊢
    rw [exampleOf]
    dsimp only
    split
    · exact Agrees.ok_iff.mpr rfl
    · rw [if_neg (by simp [hm])]
      rcases hd : Default.read type literal with f | v
      · exact Agrees.error_iff.mpr ⟨.defect (.literal f), rfl, rfl⟩
      · exact Agrees.ok_iff.mpr rfl

/-! ### Texts -/

/-- A row that starts with a block, and is more than the block, is no tag. -/
theorem readTag_of_sole?_cons {x : Reading} {rs : List (Sign Reading)}
    (hs : sole? (.block x :: rs) = none) : readTag (.block x :: rs) = .error .form := by
  rw [readTag, hs]
  rfl

theorem Clean.agrees_nodeOf (h : Clean blocks inner ss) :
    Agrees (nodeOf blocks inner (spell word ss)) (readTag (readings ss)) := by
  rcases hs : sole? ss with - | x
  · rcases h.result_block?_of_sole? hs with he | ⟨⟨t, he⟩, ⟨x, ss', rfl⟩, -⟩
    · refine Agrees.of_result ?_ (h.agrees_typeOf hs)
      rw [nodeOf, Traced.result_bind, he]
      rfl
    · have hs' : sole? (.block x.2 :: readings ss') = none := by
        have e := sole?_map Prod.snd (.block x :: ss')
        rwa [hs] at e
      have hr : readTag (readings (.block x :: ss')) = .error .form := readTag_of_sole?_cons hs'
      rw [hr]
      refine Agrees.error_iff.mpr ⟨.defect (.unknownPlaceholder t), ?_, rfl⟩
      rw [nodeOf, Traced.result_bind, he]
      rfl
  · obtain rfl := sole?_eq_some_iff.mp hs
    obtain ⟨b, he, hi⟩ := h.result_block?_sole
    refine Agrees.of_result ?_ hi
    rw [nodeOf, Traced.result_bind, he]
    rfl

theorem split_spell (ss : List (Sign Numbered)) :
    Marker.split (spell word ss) = ((splitMarker ss).1, spell word (splitMarker ss).2) := by
  rcases ss with - | ⟨s, ss⟩
  · rfl
  · cases s with
    | char c =>
      rw [spell, Marker.split, splitMarker]
      rcases Marker.ofChar? c with - | m <;> rfl
    | block x => rfl

theorem Clean.agrees_resolveValue (h : Clean blocks inner ss) :
    Agrees (resolveValue blocks inner (spell word ss)) (readValue (readings ss)) := by
  have hcut : Clean blocks inner (Sign.cut ':' ss).1 ∧ Clean blocks inner (Sign.cut ':' ss).2 :=
    h.cut (.inl rfl)
  rw [resolveValue_eq, readValue, cut_spell (not_mem_word (.inl rfl)), cut_map,
    split_spell, splitMarker_map]
  refine hcut.1.splitMarker.agrees_nodeOf.bind fun node _ => ?_
  refine (hcut.2.agrees_exampleOf node.type).bind fun example? _ => ?_
  exact Agrees.ok_iff.mpr rfl

theorem Clean.after (hs : sep = ':' ∨ sep = ',') (h : Clean blocks inner ss) :
    Clean blocks inner (after sep ss) := by
  rw [Sign.after]
  split
  · exact (h.cut hs).2
  · exact h

theorem Clean.agrees_resolveItem (h : Clean blocks inner ss) :
    Agrees (resolveItem blocks inner (spell word ss)) (readItem (readings ss)) := by
  rw [readItem, sole?_map]
  rcases hs : sole? ss with - | x
  · rw [Option.map_none]
    rcases h.result_block?_of_sole? hs with he | ⟨⟨t, he⟩, ⟨x, ss', rfl⟩, hc⟩
    · rw [after_map]
      refine Agrees.of_result ?_ (h.after (.inl rfl)).agrees_resolveValue
      rw [resolveItem, Traced.result_bind, he, after_spell (not_mem_word (.inl rfl))]
      rfl
    · -- the reading fails too: the tag is the whole row
      have hs' : sole? (.block x.2 :: readings ss') = none := by
        have e := sole?_map Prod.snd (.block x :: ss')
        rwa [hs] at e
      have hc' : hasChar ':' (readings (.block x :: ss')) = false := by
        rw [hasChar_map, hc]
      have hr : readValue (readings (.block x :: ss')) = .error .form := by
        rw [readValue, cut_of_hasChar hc']
        show (readTag (.block x.2 :: readings ss') >>= _) = _
        rw [readTag_of_sole?_cons hs']
        rfl
      rw [Sign.after, hc', if_neg (by simp), hr]
      refine Agrees.error_iff.mpr ⟨.defect (.unknownPlaceholder t), ?_, rfl⟩
      rw [resolveItem, Traced.result_bind, he]
      rfl
  · obtain rfl := sole?_eq_some_iff.mp hs
    obtain ⟨b, he, hi⟩ := h.result_block?_sole
    refine Agrees.of_result ?_ hi
    rw [resolveItem, Traced.result_bind, he]
    rfl

/-! ### Blocks -/

theorem spell_eq_nil_iff (ss : List (Sign Numbered)) : spell word ss = [] ↔ ss = [] := by
  rcases ss with - | ⟨s, ss⟩
  · simp [spell]
  · cases s <;> simp [spell, word, placeholder]

theorem Clean.agrees_itemStep (h : Clean blocks inner ss) (body : List (Sign Numbered))
    (items : List Schema) :
    Agrees (itemStep blocks inner (spell word body) items (spell word ss))
      (do
        let item ← readElement (readings body) (readings ss)
        pure (addItem items item)) := by
  have hcond : (!(readings body).isEmpty && (readings ss).isEmpty) = true ↔
      spell word body ≠ [] ∧ spell word ss = [] := by
    simp [spell_eq_nil_iff]
  rw [itemStep, readElement]
  by_cases hc : spell word body ≠ [] ∧ spell word ss = []
  · rw [if_pos (hcond.mpr hc), if_pos hc]
    exact Agrees.reject rfl
  · rw [if_neg fun hr => hc (hcond.mp hr), if_neg hc]
    exact h.agrees_resolveItem.bind fun item _ => Agrees.ok_iff.mpr rfl

theorem Clean.agrees_propertyStep (h : Clean blocks inner ss) (properties : Table String Schema) :
    Agrees (propertyStep blocks inner properties (spell word ss))
      (do
        let property ← readProperty (readings ss)
        pure (properties.set property.1 property.2)) := by
  have hcut : Clean blocks inner (Sign.cut ':' ss).1 ∧ Clean blocks inner (Sign.cut ':' ss).2 :=
    h.cut (.inl rfl)
  rw [propertyStep, readProperty, cut_spell (not_mem_word (.inl rfl)), cut_map,
    chars?_map]
  dsimp only
  rcases hn : chars? (Sign.cut ':' ss).1 with - | name
  · obtain ⟨hne, hm⟩ := hcut.1.spell_of_chars?_none hn
    rw [if_neg hne, if_pos hm]
    exact Agrees.reject rfl
  · obtain ⟨e, hm⟩ := hcut.1.spell_of_chars?_some hn
    rw [e] at hm ⊢
    dsimp only
    split
    · exact Agrees.reject rfl
    · rw [if_neg (by simp [hm]), bind_assoc]
      exact hcut.2.agrees_resolveValue.bind fun value _ => Agrees.ok_iff.mpr rfl

/-- A run over the pieces of a text agrees with the readings of all of them, if it does so piece
by piece. -/
theorem Agrees.foldlM {α β : Type} {f : α → β → α} {step : α → List Char → Outcome α}
    {read : List (Sign Reading) → Except Flaw β} {rows : List (List (Sign Numbered))}
    (h : ∀ p ∈ rows, ∀ a, Agrees (step a (spell word p))
      (do
        let b ← read (readings p)
        pure (f a b))) (a : α) :
    Agrees ((rows.map (spell word)).foldlM step a)
      (do
        let bs ← (rows.map readings).mapM read
        pure (bs.foldl f a)) := by
  induction rows generalizing a with
  | nil => exact Agrees.ok_iff.mpr rfl
  | cons p rows ih =>
    have hrest := ih fun q hq => h q (List.mem_cons_of_mem p hq)
    have hall := (h p List.mem_cons_self a).bind fun b _ => hrest b
    rw [List.map_cons, List.map_cons, List.foldlM_cons, List.mapM_cons]
    simpa only [bind_assoc, pure_bind, List.foldl_cons] using hall

/-- Resolving a block agrees with reading it, once resolving the blocks in it does. -/
theorem Clean.agrees_resolveBody (h : Clean blocks inner ss) (k : BlockKind) :
    Agrees (resolveBody blocks inner ⟨k, spell word ss⟩) (readBody k (readings ss)) := by
  have hp : ∀ p ∈ Sign.pieces ',' ss, Clean blocks inner p := h.pieces (.inr rfl)
  have hpieces : Text.pieces ',' (spell word ss) = (Sign.pieces ',' ss).map (spell word) :=
    pieces_spell (not_mem_word (.inr rfl)) ss
  cases k with
  | array =>
    rw [resolveBody, readBody, pieces_map]
    dsimp only
    rw [hpieces, resolveItems_eq_foldlM]
    have hitems := Agrees.foldlM (fun p hmem => (hp p hmem).agrees_itemStep ss) []
    have hblock := hitems.bind (f := fun items => pure (Schema.array items {}))
      (g := fun items => pure (Schema.array items {})) fun items _ => Agrees.ok_iff.mpr rfl
    simpa only [bind_assoc, pure_bind] using hblock
  | object =>
    have hnil : (readings ss).isEmpty = true ↔ spell word ss = [] := by
      simp [spell_eq_nil_iff]
    rw [readBody, pieces_map]
    by_cases hc : spell word ss = []
    · rw [if_pos (hnil.mpr hc), resolveBody]
      dsimp only
      rw [if_pos hc]
      exact Agrees.ok_iff.mpr rfl
    · rw [if_neg fun hr => hc (hnil.mp hr), resolveBody]
      dsimp only
      rw [if_neg hc, hpieces, resolveProperties_eq_foldlM]
      have hproperties := Agrees.foldlM (fun p hmem => (hp p hmem).agrees_propertyStep) []
      have hblock := hproperties.bind (f := fun properties => pure (Schema.object properties {}))
        (g := fun properties => pure (Schema.object properties {})) fun properties _ =>
          Agrees.ok_iff.mpr rfl
      rw [bind_assoc] at hblock
      exact hblock

end Clean

end Shape

/-! ### The whole text -/

namespace Nested

open Block Shape Sign

/-- The row of a text, `n` blocks standing before it. -/
def numbered (n : Nat) : Nested → List (Sign Numbered)
  | nil => []
  | char c _ rest => .char c :: rest.numbered n
  | block k body rest =>
    .block (n + body.size, readBody k (body.signs readBody)) ::
      rest.numbered (n + body.size + 1)

theorem readings_numbered (n : Nat) (t : Nested) : readings (t.numbered n) = t.signs readBody := by
  induction t generalizing n with
  | nil => rfl
  | char c plain rest ih => exact congrArg (Sign.char c :: ·) (ih n)
  | block k body rest _ ih =>
    exact congrArg (Sign.block (readBody k (body.signs readBody)) :: ·) (ih (n + body.size + 1))

theorem spell_numbered (n : Nat) (t : Nested) : spell word (t.numbered n) = t.flatText n := by
  induction t generalizing n with
  | nil => rfl
  | char c plain rest ih => rw [numbered, spell, ih, flatText]
  | block k body rest _ ih => rw [numbered, spell, ih, flatText]

/-- The digits in front of a text stay when the blocks come out. -/
theorem takeWhile_flatText (n : Nat) (t : Nested) :
    (t.flatText n).takeWhile Char.isDigit = t.text.takeWhile Char.isDigit := by
  induction t generalizing n with
  | nil => rfl
  | char c plain rest ih => rw [flatText, text, List.takeWhile_cons, List.takeWhile_cons, ih]
  | block k body rest _ _ => cases k <;> rfl

/-- **The invariant.**  If the blocks of a text are in the table from place `n` on, and none of
them is captured, then its row is clean, whatever depth is left beyond its last block. -/
theorem clean_numbered {blocks : List Block} {t : Nested} {n depth : Nat}
    (hd : '$' ∉ t.text) (hc : t.capturesFrom blocks.length n = false)
    (hb : t.blocks n <+: blocks.drop n) (hn : n + t.size ≤ depth) :
    Clean blocks (resolveBlock blocks depth) (t.numbered n) := by
  induction t generalizing n depth with
  | nil => trivial
  | char c plain rest ih =>
    simp only [text, List.mem_cons, not_or] at hd
    exact ⟨Ne.symm hd.1, ih hd.2 hc hb hn⟩
  | block k body rest ihb ihr =>
    simp only [text, List.mem_cons, List.mem_append, not_or] at hd
    obtain ⟨-, hdb, -, hdr⟩ := hd
    simp only [capturesFrom, Bool.or_eq_false_iff] at hc
    obtain ⟨⟨hcb, hren⟩, hcr⟩ := hc
    -- in the table: the blocks of the body, the block itself, those of the rest, and others
    obtain ⟨others, hb⟩ := hb
    rw [Nested.blocks, List.append_assoc, List.cons_append] at hb
    have hdrop : blocks.drop (n + body.size + 1) = rest.blocks (n + body.size + 1) ++ others := by
      rw [Nat.add_assoc, ← List.drop_drop, ← hb, ← length_blocks n body, ← List.drop_drop,
        List.drop_left]
      rfl
    have hget : blocks[n + body.size]? = some ⟨k, body.flatText n⟩ := by
      rw [← List.getElem?_drop, ← hb, ← length_blocks n body]
      simp
    rw [size] at hn
    have hrest : Clean blocks (resolveBlock blocks depth) (rest.numbered (n + body.size + 1)) :=
      ihr hdr hcr ⟨others, hdrop.symm⟩ (by omega)
    refine ⟨⟨_, hget, ?_⟩, ?_, hrest⟩
    · -- the block itself: its body is clean at one depth less
      obtain ⟨d, rfl⟩ : ∃ d, depth = d + 1 := ⟨depth - 1, by omega⟩
      have hbody : Clean blocks (resolveBlock blocks d) (body.numbered n) :=
        ihb hdb hcb ⟨_, hb⟩ (by omega)
      have := hbody.agrees_resolveBody k
      rwa [spell_numbered, readings_numbered] at this
    · -- what follows the block: the same digits as in the text
      rw [spell_numbered, takeWhile_flatText, hren]

end Nested

namespace Shape

/-- **Faithful resolution.**  In a text without dollar signs in which no block is captured, every
block is resolved as itself: the outcome is what the nested text says. -/
theorem compileSource_agrees_reading {t : Nested} (hd : '$' ∉ t.text)
    (hc : t.captures = false) : Agrees (compileSource t.text) t.reading := by
  have hclean : Clean (t.blocks 0) (resolveBlock (t.blocks 0) (t.blocks 0).length)
      (t.numbered 0) := by
    refine Nested.clean_numbered hd ?_ (List.prefix_refl _) ?_
    · rw [Nested.length_blocks]
      exact hc
    · exact Nat.le_of_eq (by rw [Nested.length_blocks, Nat.zero_add])
  have hbal : (Flat.ofText t.text).balanced = true := (Flat.balanced_ofText_iff _).mpr ⟨t, rfl⟩
  have := hclean.agrees_resolveItem
  rw [Nested.spell_numbered, Nested.readings_numbered] at this
  rw [compileSource, resolveFlat, if_pos hbal, Flat.ofText_text]
  exact this

end Shape

end ApiOutline
