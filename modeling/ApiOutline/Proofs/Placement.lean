/-
ApiOutline/Proofs/Placement.lean

Where the blocks of a text stand, and what the compiler makes of those out of
place.

Design.  A block is in place as an item of an array, as the whole text, and as
the tag of a value; it is out of place in a name, in a default, and beside other
text.  `Nested.placed` says that all blocks are in place, and
`Nested.namesBlock` that some block stands in the name of an item, or of the
whole text: that name is dropped, unlike the name of a property, and the block
is lost with it.  Both are computed from the signs of a text, as its reading is,
and the three are compared in one pass over the text (`Report`).

Main result: apart from the names of items, the compiler refuses all texts that
have a block out of place, as long as no block is captured by the digits behind
it (`compile_keeps_blocks_iff`).
-/
import ApiOutline.Proofs.Resolution

namespace ApiOutline

open Sign

/-! ### Being in place -/

/-- A tag is a block, or there is no block in it. -/
def placedTag (tag : List (Sign Bool)) : Bool :=
  match sole? tag with
  | some inside => inside
  | none => !hasBlock tag

/-- The blocks of a value are in place: one may be its tag. -/
def placedValue (ss : List (Sign Bool)) : Bool :=
  placedTag (splitMarker (cut ':' ss).1).2 && !hasBlock (cut ':' ss).2

/-- The blocks of an item are in place: it may be one, or one may be the tag of its value. -/
def placedItem (ss : List (Sign Bool)) : Bool :=
  match sole? ss with
  | some inside => inside
  | none =>
    if hasChar ':' ss then !hasBlock (cut ':' ss).1 && placedValue (cut ':' ss).2
    else placedValue ss

/-- The blocks of a property are in place: one may be the tag of its value. -/
def placedProperty (ss : List (Sign Bool)) : Bool :=
  !hasBlock (cut ':' ss).1 && placedValue (cut ':' ss).2

/-- The blocks in a block are in place. -/
def placedBody : BlockKind → List (Sign Bool) → Bool
  | .array, body => (pieces ',' body).all placedItem
  | .object, body => (pieces ',' body).all placedProperty

/-- All blocks of a text are in place: each is the whole text, an item of an array, or the tag of
a value. -/
def Nested.placed (t : Nested) : Bool := placedItem (t.signs placedBody)

/-! ### Names of items -/

/-- There is a block in the name of an item. -/
def nameHasBlock {α : Type} (ss : List (Sign α)) : Bool :=
  hasChar ':' ss && hasBlock (cut ':' ss).1

/-- A sign is a block with a block in the name of an item inside, at some depth. -/
def namesWithin : Sign Bool → Bool
  | .char _ => false
  | .block named => named

/-- Some sign of the row is a block with a block in the name of an item inside. -/
def namesInside (ss : List (Sign Bool)) : Bool := ss.any namesWithin

/-- In a block, at some depth, there is a block in the name of an item. -/
def namesBody : BlockKind → List (Sign Bool) → Bool
  | .array, body => namesInside body || (pieces ',' body).any nameHasBlock
  | .object, body => namesInside body

/-- There is a block in the name of an item of some array, or of the whole text. -/
def Nested.namesBlock (t : Nested) : Bool :=
  namesInside (t.signs namesBody) || nameHasBlock (t.signs namesBody)

/-! ### Blocks in place are followed by no digits -/

/-- The row starts with a digit. -/
def startsWithDigit {α : Type} : List (Sign α) → Bool
  | .char c :: _ => c.isDigit
  | _ => false

/-- No digit stands directly behind a block. -/
def detached {α : Type} : List (Sign α) → Bool
  | [] => true
  | .char _ :: ss => detached ss
  | .block _ :: ss => !startsWithDigit ss && detached ss

/-- All blocks of the row are in order inside, and have no digit behind them. -/
def Settled (ss : List (Sign Bool)) : Prop := (∀ b, .block b ∈ ss → b = true) ∧ detached ss = true

namespace Settled

variable {ss : List (Sign Bool)} {sep : Char}

theorem of_hasBlock (h : hasBlock ss = false) : Settled ss := by
  refine ⟨fun b hb => absurd hb ((hasBlock_eq_false_iff ss).mp h b), ?_⟩
  induction ss with
  | nil => rfl
  | cons s ss ih =>
    cases s with
    | char c => exact ih h
    | block b => cases h

theorem of_sole {inside : Bool} (h : sole? ss = some inside) (hi : inside = true) :
    Settled ss := by
  obtain rfl := sole?_eq_some_iff.mp h
  refine ⟨fun b hb => ?_, rfl⟩
  obtain rfl : b = inside := by simpa using hb
  exact hi

theorem cons_char (c : Char) (h : Settled ss) : Settled (.char c :: ss) := by
  refine ⟨fun b hb => h.1 b ?_, h.2⟩
  simpa using hb

theorem append (hs : sep.isDigit = false) {a b : List (Sign Bool)} (ha : Settled a)
    (hb : Settled b) : Settled (a ++ .char sep :: b) := by
  refine ⟨fun x hx => ?_, ?_⟩
  · rcases List.mem_append.mp hx with hx | hx
    · exact ha.1 x hx
    · exact (hb.cons_char sep).1 x hx
  · have hd := ha.2
    clear ha
    induction a with
    | nil => exact hb.2
    | cons s a ih =>
      cases s with
      | char c => exact ih hd
      | block x =>
        rw [detached, Bool.and_eq_true] at hd
        rw [List.cons_append, detached, ih hd.2, Bool.and_true]
        rcases a with - | ⟨t, a⟩
        · simp [startsWithDigit, hs]
        · cases t with
          | char c => exact hd.1
          | block y => rfl

theorem of_splitMarker (h : Settled (splitMarker ss).2) : Settled ss := by
  rcases ss with - | ⟨s, ss⟩
  · exact h
  · cases s with
    | char c =>
      rw [splitMarker] at h
      split at h
      · exact h.cons_char c
      · exact h
    | block b => exact h

theorem of_cut (sep : Char) (hs : sep.isDigit = false) (h1 : Settled (cut sep ss).1)
    (h2 : Settled (cut sep ss).2) : Settled ss := by
  rcases hc : hasChar sep ss with - | -
  · rw [cut_of_hasChar hc] at h1
    exact h1
  · rw [eq_cut_of_hasChar hc]
    exact append hs h1 h2

theorem of_pieces (sep : Char) (hs : sep.isDigit = false) (h : ∀ p ∈ pieces sep ss, Settled p) :
    Settled ss := by
  generalize hp : pieces sep ss = ps at h
  induction ps generalizing ss with
  | nil => exact absurd hp (pieces_ne_nil sep ss)
  | cons p ps ih =>
    rcases hc : hasChar sep ss with - | -
    · rw [pieces_of_hasChar hc] at hp
      rw [(List.cons.inj hp).1]
      exact h p List.mem_cons_self
    · have he := eq_cut_of_hasChar hc
      rw [he, pieces_append (hasChar_cut sep ss)] at hp
      obtain ⟨hp, hps⟩ := List.cons.inj hp
      rw [he]
      refine append hs ?_ (ih hps fun q hq => h q (List.mem_cons_of_mem _ hq))
      rw [hp]
      exact h p List.mem_cons_self

theorem of_placedTag (h : placedTag ss = true) : Settled ss := by
  rw [placedTag] at h
  split at h
  · rename_i hs
    exact .of_sole hs h
  · exact .of_hasBlock (by simpa using h)

theorem of_placedValue (h : placedValue ss = true) : Settled ss := by
  rw [placedValue, Bool.and_eq_true, Bool.not_eq_true'] at h
  exact .of_cut ':' rfl (of_splitMarker (of_placedTag h.1)) (of_hasBlock h.2)

theorem of_placedProperty (h : placedProperty ss = true) : Settled ss := by
  rw [placedProperty, Bool.and_eq_true, Bool.not_eq_true'] at h
  exact .of_cut ':' rfl (of_hasBlock h.1) (of_placedValue h.2)

theorem of_placedItem (h : placedItem ss = true) : Settled ss := by
  rw [placedItem] at h
  split at h
  · rename_i hs
    exact .of_sole hs h
  · split at h
    · rw [Bool.and_eq_true, Bool.not_eq_true'] at h
      exact .of_cut ':' rfl (of_hasBlock h.1) (of_placedValue h.2)
    · exact of_placedValue h

theorem of_placedBody {k : BlockKind} (h : placedBody k ss = true) : Settled ss := by
  cases k with
  | array =>
    rw [placedBody, List.all_eq_true] at h
    exact .of_pieces ',' rfl fun p hp => of_placedItem (h p hp)
  | object =>
    rw [placedBody, List.all_eq_true] at h
    exact .of_pieces ',' rfl fun p hp => of_placedProperty (h p hp)

end Settled

/-- Blocks in place are not captured. -/
theorem Nested.capturesFrom_of_settled {t : Nested} (h : Settled (t.signs placedBody))
    (total n : Nat) : t.capturesFrom total n = false := by
  induction t generalizing n with
  | nil => rfl
  | char c plain rest ih => exact ih ⟨fun b hb => h.1 b (List.mem_cons_of_mem _ hb), h.2⟩ n
  | block k body rest ihb ihr =>
    obtain ⟨hin, hd⟩ := h
    rw [signs, detached, Bool.and_eq_true, Bool.not_eq_true'] at hd
    have hbody := ihb (Settled.of_placedBody (hin _ List.mem_cons_self)) n
    have hrest := ihr ⟨fun b hb => hin b (List.mem_cons_of_mem _ hb), hd.2⟩ (n + body.size + 1)
    have hdigits : rest.text.takeWhile Char.isDigit = [] := by
      cases rest with
      | nil => rfl
      | char c plain rest =>
        -- this is the one place where a digit could stand
        have hc : c.isDigit = false := hd.1
        rw [text, List.takeWhile_cons, hc]
        rfl
      | block l body rest => cases l <;> rfl
    rw [capturesFrom, hbody, hrest, hdigits]
    rfl

/-! ### Reading, being in place and names, side by side -/

/-- What a block is worth to each of the three. -/
structure Report where
  reading : Reading
  placed : Bool
  named : Bool

namespace Report

/-- The report on a block whose inner blocks have reports. -/
def ofBody (k : BlockKind) (ss : List (Sign Report)) : Report :=
  ⟨Shape.readBody k (ss.map (Sign.map reading)), placedBody k (ss.map (Sign.map placed)),
    namesBody k (ss.map (Sign.map named))⟩

/-- What can be read is in place, unless there is a block in the name of an item. -/
def Consistent (x : Report) : Prop :=
  (∀ s, x.reading = .ok s → x.named = false → x.placed = true) ∧
    (x.placed = true → x.named = false)

end Report

theorem Nested.signs_map {α β : Type} (f : α → β) (worth : BlockKind → List (Sign α) → α)
    (worth' : BlockKind → List (Sign β) → β)
    (h : ∀ k ss, worth' k (ss.map (Sign.map f)) = f (worth k ss)) (t : Nested) :
    t.signs worth' = (t.signs worth).map (Sign.map f) := by
  induction t with
  | nil => rfl
  | char c plain rest ih => rw [signs, signs, ih, List.map_cons, map_char]
  | block k body rest ihb ihr => rw [signs, signs, ihb, ihr, h, List.map_cons, map_block]

section Rows

open Report Shape

/-- The readings of a row of reports. -/
abbrev readingsOf (ss : List (Sign Report)) : List (Sign Reading) := ss.map (Sign.map reading)

/-- Which blocks of a row of reports are in order inside. -/
abbrev placedOf (ss : List (Sign Report)) : List (Sign Bool) := ss.map (Sign.map placed)

/-- Which blocks of a row of reports have blocks in names of items inside. -/
abbrev namedOf (ss : List (Sign Report)) : List (Sign Bool) := ss.map (Sign.map named)

/-- Blocks of the row that can be read are in order inside. -/
def Fit (ss : List (Sign Report)) : Prop :=
  ∀ x s, .block x ∈ ss → x.reading = .ok s → x.placed = true

variable {ss : List (Sign Report)}

theorem Fit.mono {ss' : List (Sign Report)} (h : Fit ss) (hs : ∀ s ∈ ss', s ∈ ss) : Fit ss' :=
  fun x s hx hr => h x s (hs _ hx) hr

theorem namesInside_namedOf :
    namesInside (namedOf ss) = false ↔ ∀ x, .block x ∈ ss → x.named = false := by
  rw [namesInside, List.any_eq_false]
  constructor
  · intro h x hx
    simpa [namesWithin] using h _ (List.mem_map_of_mem (f := Sign.map named) hx)
  · intro h s hs
    obtain ⟨t, ht, rfl⟩ := List.mem_map.mp hs
    cases t with
    | char c => exact Bool.false_ne_true
    | block x => simpa [namesWithin] using h x ht

theorem nameHasBlock_map {α β : Type} (f : α → β) (ss : List (Sign α)) :
    nameHasBlock (ss.map (Sign.map f)) = nameHasBlock ss := by
  rw [nameHasBlock, nameHasBlock, hasChar_map, cut_map, hasBlock_map]

theorem placedTag_of_ok (h : Fit ss) {node : Schema} (hr : readTag (readingsOf ss) = .ok node) :
    placedTag (placedOf ss) = true := by
  rw [readTag, sole?_map, chars?_map] at hr
  rw [placedTag, sole?_map]
  rcases hs : sole? ss with - | x
  · rw [hs] at hr
    rcases hc : chars? ss with - | cs
    · rw [hc] at hr
      cases hr
    · rw [Option.map_none, hasBlock_map, hasBlock_of_chars? hc]
      rfl
  · rw [hs] at hr
    obtain rfl := sole?_eq_some_iff.mp hs
    exact h x node List.mem_cons_self hr

theorem hasBlock_of_readExample_ok {type : TypeName} {example? : Option Scalar}
    (hr : readExample type (readingsOf ss) = .ok example?) : hasBlock (placedOf ss) = false := by
  rw [readExample, chars?_map] at hr
  rcases hc : chars? ss with - | cs
  · rw [hc] at hr
    cases hr
  · rw [hasBlock_map, hasBlock_of_chars? hc]

theorem placedValue_of_ok (h : Fit ss) {s : Schema} (hr : readValue (readingsOf ss) = .ok s) :
    placedValue (placedOf ss) = true := by
  rw [readValue, cut_map, splitMarker_map] at hr
  rw [placedValue, cut_map, splitMarker_map]
  have htag : Fit (splitMarker (cut ':' ss).1).2 :=
    h.mono fun t ht => mem_of_mem_cut (.inl (mem_of_mem_splitMarker ht))
  obtain ⟨node, hnode, hr⟩ := bind_eq_ok_iff.mp hr
  obtain ⟨example?, hexample, -⟩ := bind_eq_ok_iff.mp hr
  rw [Bool.and_eq_true, Bool.not_eq_true']
  exact ⟨placedTag_of_ok htag hnode, hasBlock_of_readExample_ok hexample⟩

theorem placedItem_of_ok (h : Fit ss) {s : Schema} (hr : readItem (readingsOf ss) = .ok s)
    (hn : nameHasBlock ss = false) : placedItem (placedOf ss) = true := by
  rw [readItem, sole?_map, after_map] at hr
  rw [placedItem, sole?_map, hasChar_map, cut_map, hasBlock_map]
  rcases hs : sole? ss with - | x
  · -- what stands before the colon was not read, so that only `hn` speaks of it
    rw [hs] at hr
    rw [after] at hr
    rw [nameHasBlock] at hn
    rcases hc : hasChar ':' ss with - | -
    · rw [hc] at hr
      exact placedValue_of_ok h hr
    · rw [hc] at hr hn
      rw [Bool.true_and] at hn
      have hvalue : Fit (cut ':' ss).2 := h.mono fun t ht => mem_of_mem_cut (.inr ht)
      have hplaced : placedValue (placedOf (cut ':' ss).2) = true := placedValue_of_ok hvalue hr
      simp only [if_true, Option.map_none, hn, hplaced]
      rfl
  · rw [hs] at hr
    obtain rfl := sole?_eq_some_iff.mp hs
    exact h x s List.mem_cons_self hr

theorem placedProperty_of_ok (h : Fit ss) {e : String × Schema}
    (hr : readProperty (readingsOf ss) = .ok e) : placedProperty (placedOf ss) = true := by
  rw [readProperty, cut_map, chars?_map] at hr
  rw [placedProperty, cut_map, hasBlock_map]
  dsimp only at hr
  rcases hc : chars? (cut ':' ss).1 with - | name
  · rw [hc] at hr
    cases hr
  · rw [hc] at hr
    dsimp only at hr
    split at hr
    · cases hr
    · obtain ⟨s, hs, -⟩ := bind_eq_ok_iff.mp hr
      have hvalue : Fit (cut ':' ss).2 := h.mono fun t ht => mem_of_mem_cut (.inr ht)
      have hplaced : placedValue (placedOf (cut ':' ss).2) = true := placedValue_of_ok hvalue hs
      rw [hasBlock_of_chars? hc, hplaced]
      rfl

theorem Fit.pieces (h : Fit ss) {p : List (Sign Report)} (hp : p ∈ pieces ',' ss) : Fit p :=
  h.mono fun _ ht => mem_of_mem_pieces hp ht

theorem placedBody_of_ok (h : Fit ss) {k : BlockKind} {s : Schema}
    (hr : readBody k (readingsOf ss) = .ok s) (hn : namesBody k (namedOf ss) = false) :
    placedBody k (placedOf ss) = true := by
  cases k with
  | array =>
    rw [readBody, pieces_map] at hr
    rw [namesBody, pieces_map, Bool.or_eq_false_iff, List.any_eq_false] at hn
    rw [placedBody, pieces_map, List.all_eq_true]
    obtain ⟨nodes, hnodes, -⟩ := bind_eq_ok_iff.mp hr
    intro q hq
    obtain ⟨p, hp, rfl⟩ := List.mem_map.mp hq
    obtain ⟨node, hnode⟩ := ok_of_mapM hnodes _ (List.mem_map_of_mem hp)
    have hname : nameHasBlock p = false := by
      rw [← nameHasBlock_map named]
      exact Bool.eq_false_iff.mpr (hn.2 _ (List.mem_map_of_mem hp))
    rw [readElement] at hnode
    split at hnode
    · -- an empty item beside others
      cases hnode
    · exact placedItem_of_ok (h.pieces hp) hnode hname
  | object =>
    rw [readBody, pieces_map] at hr
    rw [placedBody, pieces_map, List.all_eq_true]
    split at hr
    · -- the empty object
      rename_i he
      obtain rfl : ss = [] := by simpa using he
      simp [Sign.pieces, placedProperty, placedValue, placedTag, cut, sole?, splitMarker, hasBlock]
    · obtain ⟨entries, hentries, -⟩ := bind_eq_ok_iff.mp hr
      intro q hq
      obtain ⟨p, hp, rfl⟩ := List.mem_map.mp hq
      obtain ⟨entry, hentry⟩ := ok_of_mapM hentries _ (List.mem_map_of_mem hp)
      exact placedProperty_of_ok (h.pieces hp) hentry

theorem nameHasBlock_of_placedItem (h : placedItem (placedOf ss) = true) :
    nameHasBlock ss = false := by
  rw [placedItem, sole?_map, hasChar_map, cut_map, hasBlock_map] at h
  rw [nameHasBlock]
  rcases hs : sole? ss with - | x
  · rw [hs] at h
    rcases hc : hasChar ':' ss with - | -
    · rfl
    · rw [hc] at h
      simp only [Option.map_none, if_true, Bool.and_eq_true, Bool.not_eq_true'] at h
      exact h.1
  · obtain rfl := sole?_eq_some_iff.mp hs
    rfl

/-- Where blocks are in place, those in them are, and no name has one. -/
theorem named_of_settled (h : ∀ x, .block x ∈ ss → x.Consistent) (hp : Settled (placedOf ss)) :
    namesInside (namedOf ss) = false :=
  namesInside_namedOf.mpr fun x hx => (h x hx).2 (hp.1 _ (List.mem_map_of_mem hx))

theorem namesBody_of_placedBody (h : ∀ x, .block x ∈ ss → x.Consistent) {k : BlockKind}
    (hp : placedBody k (placedOf ss) = true) : namesBody k (namedOf ss) = false := by
  have hinside := named_of_settled h (.of_placedBody hp)
  cases k with
  | array =>
    rw [namesBody, hinside, Bool.false_or, pieces_map, List.any_eq_false]
    intro q hq
    obtain ⟨p, hmem, rfl⟩ := List.mem_map.mp hq
    rw [placedBody, pieces_map, List.all_eq_true] at hp
    rw [nameHasBlock_map, nameHasBlock_of_placedItem (hp _ (List.mem_map_of_mem hmem))]
    exact Bool.false_ne_true
  | object => rw [namesBody, hinside]

theorem Report.consistent_ofBody (h : ∀ x, .block x ∈ ss → x.Consistent) (k : BlockKind) :
    (ofBody k ss).Consistent := by
  refine ⟨fun s hs hn => ?_, fun hp => namesBody_of_placedBody h hp⟩
  have hinside : namesInside (namedOf ss) = false := by
    cases k with
    | array => exact (Bool.or_eq_false_iff.mp hn).1
    | object => exact hn
  have hfit : Fit ss := fun x s hx hr => (h x hx).1 s hr (namesInside_namedOf.mp hinside x hx)
  exact placedBody_of_ok hfit hs hn

theorem Nested.consistent (t : Nested) : ∀ x, .block x ∈ t.signs ofBody → x.Consistent := by
  induction t with
  | nil => simp [signs]
  | char c plain rest ih => simpa [signs] using ih
  | block k body rest ihb ihr =>
    intro x hx
    rw [signs] at hx
    rcases List.mem_cons.mp hx with hx | hx
    · obtain rfl := Sign.block.inj hx
      exact Report.consistent_ofBody ihb k
    · exact ihr x hx

/-- **Losing no block.**  A text that can be read has all its blocks in place, or one in the name
of an item. -/
theorem Nested.placed_iff_of_reading_ok {t : Nested} {s : Schema} (h : t.reading = .ok s) :
    t.placed = true ↔ t.namesBlock = false := by
  have hread := signs_map Report.reading ofBody readBody (fun k ss => rfl) t
  have hplaced := signs_map Report.placed ofBody placedBody (fun k ss => rfl) t
  have hnamed := signs_map Report.named ofBody namesBody (fun k ss => rfl) t
  have hall := t.consistent
  rw [Nested.reading, hread] at h
  rw [Nested.placed, hplaced, namesBlock, hnamed, Bool.or_eq_false_iff, nameHasBlock_map]
  constructor
  · intro hp
    exact ⟨named_of_settled hall (.of_placedItem hp), nameHasBlock_of_placedItem hp⟩
  · rintro ⟨hinside, hname⟩
    have hfit : Fit (t.signs ofBody) := fun x s hx hr =>
      (hall x hx).1 s hr (namesInside_namedOf.mp hinside x hx)
    exact placedItem_of_ok hfit h hname

end Rows

/-! ### Compiling -/

/-- Compiling the text ends with a complaint about it. -/
def Shape.Rejects (text : String) : Prop :=
  ∃ source cause, (compile text).result = .error (.malformed source cause)

theorem Shape.compile_of_agrees {text : String} {r : Reading}
    (h : Agrees (compileSource (Text.squeeze text.toList)) r) :
    (∃ s, r = .ok s ∧ (compile text).result = .ok s) ∨ (∃ f, r = .error f) ∧ Rejects text := by
  rcases r with f | s
  · obtain ⟨stop, hstop, hflaw⟩ := Agrees.error_iff.mp h
    refine .inr ⟨⟨f, rfl⟩, String.ofList (Text.squeeze text.toList), ?_⟩
    rcases stop with d | -
    · refine ⟨d, ?_⟩
      rw [compile]
      simp only [hstop]
    · cases hflaw
  · refine .inl ⟨s, rfl, ?_⟩
    rw [compile]
    simp only [Agrees.ok_iff.mp h]

theorem Nested.placed_eq_false_of_captures {t : Nested} (h : t.captures = true) :
    t.placed = false := by
  rcases hp : t.placed with - | -
  · rfl
  · rw [captures, capturesFrom_of_settled (.of_placedItem hp)] at h
    cases h

open Shape in
/-- **No block is lost.**  Compiling an outline without dollar signs refuses it if a block is out of
place, and otherwise reads each block as itself where it stands, exactly when the outline is
refused anyway or has no block in the name of an item and none that is captured by the digits
behind it. -/
theorem compile_keeps_blocks_iff {text : String} {t : Nested} (hd : '$' ∉ text.toList)
    (ht : t.text = Text.squeeze text.toList) :
    ((t.placed = false → Rejects text) ∧
        ∀ s, (compile text).result = .ok s → t.placed = true ∧ t.reading = .ok s) ↔
      Rejects text ∨ t.namesBlock = false ∧ t.captures = false := by
  have hrefused : Rejects text → (t.placed = false → Rejects text) ∧
      ∀ s, (compile text).result = .ok s → t.placed = true ∧ t.reading = .ok s := by
    intro hrej
    refine ⟨fun _ => hrej, fun s hs => ?_⟩
    obtain ⟨source, cause, he⟩ := hrej
    rw [he] at hs
    cases hs
  rcases hc : t.captures with - | -
  · -- no block is captured: the outcome is the reading
    have hdt : '$' ∉ t.text := by
      rw [ht]
      exact fun h => hd (List.mem_filter.mp h).1
    have hagrees := compileSource_agrees_reading hdt hc
    rw [ht] at hagrees
    rcases compile_of_agrees hagrees with ⟨s, hr, hs⟩ | ⟨-, hrej⟩
    · have hnot : ¬Rejects text := by
        rintro ⟨source, cause, he⟩
        rw [he] at hs
        cases hs
      rw [or_iff_right hnot, and_iff_left rfl, ← Nested.placed_iff_of_reading_ok hr]
      constructor
      · intro h
        exact (h.2 s hs).1
      · intro hp
        refine ⟨fun h => ?_, fun s' hs' => ⟨hp, ?_⟩⟩
        · rw [hp] at h
          cases h
        · rw [hs] at hs'
          rw [hr, Except.ok.inj hs']
    · exact ⟨fun _ => .inl hrej, fun _ => hrefused hrej⟩
  · -- a captured block is out of place, so only a refusal will do
    have hp := Nested.placed_eq_false_of_captures hc
    constructor
    · intro h
      exact .inl (h.1 hp)
    · rintro (hrej | ⟨-, h⟩)
      · exact hrefused hrej
      · cases h

open Shape in
/-- The array of one item is compiled, and the object in the name of the item is lost. -/
theorem compile_loses_block :
    (∃ t : Nested, t.text = Text.squeeze "[{}:i]".toList ∧ t.placed = false) ∧
      '$' ∉ "[{}:i]".toList ∧
        (compile "[{}:i]").result = .ok (.array [.plain .integer ⟨none, some true⟩] {}) :=
  ⟨⟨.block .array (.block .object .nil (.char ':' rfl (.char 'i' rfl .nil))) .nil, by decide,
    by decide⟩, by decide, by cbv⟩

open Shape in
/-- A block in the name of an item is lost; as the value of an item it is kept. -/
theorem keeps_blocks_of_item :
    (∃ t : Nested, ('$' ∉ "[k: {}]".toList ∧ t.text = Text.squeeze "[k: {}]".toList) ∧
        (t.placed = false → Rejects "[k: {}]") ∧
          ∀ s, (compile "[k: {}]").result = .ok s → t.placed = true ∧ t.reading = .ok s) ∧
      ∃ t : Nested, ('$' ∉ "[{}: k]".toList ∧ t.text = Text.squeeze "[{}: k]".toList) ∧
        ¬((t.placed = false → Rejects "[{}: k]") ∧
          ∀ s, (compile "[{}: k]").result = .ok s → t.placed = true ∧ t.reading = .ok s) := by
  have hd : '$' ∉ "[k: {}]".toList := by decide
  have hd' : '$' ∉ "[{}: k]".toList := by decide
  have hs' : (compile "[{}: k]").result = .ok (.array [.plain .string ⟨none, some true⟩] {}) := by
    cbv
  let kept : Nested :=
    .block .array (.char 'k' (by decide) (.char ':' (by decide) (.block .object .nil .nil))) .nil
  let lost : Nested :=
    .block .array (.block .object .nil (.char ':' (by decide) (.char 'k' (by decide) .nil))) .nil
  have ht : kept.text = Text.squeeze "[k: {}]".toList := by decide
  have ht' : lost.text = Text.squeeze "[{}: k]".toList := by decide
  refine ⟨⟨kept, ⟨hd, ht⟩, ?_⟩, lost, ⟨hd', ht'⟩, fun h => ?_⟩
  · exact (compile_keeps_blocks_iff hd ht).mpr (.inr ⟨by decide, by decide⟩)
  · rcases (compile_keeps_blocks_iff hd' ht').mp h with ⟨source, cause, hr⟩ | ⟨hn, -⟩
    · rw [hs'] at hr
      cases hr
    · exact absurd hn (by decide)

end ApiOutline
