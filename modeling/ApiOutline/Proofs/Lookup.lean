/-
ApiOutline/Proofs/Lookup.lean

The blocks that resolving a block looks up, and what becomes of a self-reference.

Design.  A value looks up the block that its tag names, and an item does what
its value does.  The pieces of a body are resolved one after the other, so the
block that a piece names is looked up only if all pieces before it resolve
(`LooksUp`).

Which outcome is circular can be said without following the run: it is circular
exactly when resolving a block that is looked up is
(`circular_resolveBody_iff`).  Everything else that a run gives is kept when it
is given more depth (`below_resolveBlock`).
-/
import ApiOutline.Proofs.Placeholder

namespace ApiOutline.Shape

open Block

/-! ### Circular outcomes -/

section Outcomes

variable {α β : Type}

/-- The outcome is that a block stands inside itself. -/
def Circular (x : Outcome α) : Prop := x.result = .error .selfReference

/-- The first outcome is the second one, unless it is circular. -/
def Below (x y : Outcome α) : Prop := Circular x ∨ x.result = y.result

theorem not_circular_pure (a : α) : ¬Circular (pure a : Outcome α) := by
  intro h
  cases h

theorem not_circular_reject (d : Defect) : ¬Circular (reject d : Outcome α) := by
  intro h
  cases h

theorem circular_bind_iff {x : Outcome α} {f : α → Outcome β} :
    Circular (x >>= f) ↔ Circular x ∨ ∃ a, x.result = .ok a ∧ Circular (f a) :=
  Traced.result_bind_eq_error_iff

theorem Below.refl (x : Outcome α) : Below x x := .inr rfl

theorem Below.bind {x y : Outcome α} {f g : α → Outcome β} (h : Below x y)
    (hf : ∀ a, Below (f a) (g a)) : Below (x >>= f) (y >>= g) := by
  rcases h with h | h
  · exact .inl (circular_bind_iff.mpr (.inl h))
  · rcases e : x.result with s | a
    · right
      rw [Traced.result_bind, Traced.result_bind, ← h, e]
      rfl
    · rcases hf a with hc | hc
      · exact .inl (circular_bind_iff.mpr (.inr ⟨a, e, hc⟩))
      · right
        rw [Traced.result_bind, Traced.result_bind, ← h, e]
        exact hc

/-- A result that the lower outcome has, the upper one has as well. -/
theorem Below.ok {x y : Outcome α} (h : Below x y) {a : α} (hx : x.result = .ok a) :
    y.result = .ok a := by
  rcases h with h | h
  · rw [Circular, hx] at h
    cases h
  · rw [← h, hx]

/-- A run over the parts of a text is circular if the run up to some part gives a result, and
going on with that part is circular. -/
theorem circular_foldlM_iff {step : α → List Char → Outcome α} (texts : List (List Char)) (a : α) :
    Circular (texts.foldlM step a) ↔
      ∃ before text rest b, texts = before ++ text :: rest ∧
        (before.foldlM step a).result = .ok b ∧ Circular (step b text) := by
  induction texts generalizing a with
  | nil =>
    constructor
    · intro h
      cases h
    · rintro ⟨before, text, rest, b, h, -⟩
      simp at h
  | cons text texts ih =>
    rw [List.foldlM_cons, circular_bind_iff]
    -- either the first text is at fault, or one after it
    constructor
    · rintro (h | ⟨b, hb, h⟩)
      · exact ⟨[], text, texts, a, rfl, rfl, h⟩
      · obtain ⟨before, next, rest, c, rfl, hc, hn⟩ := (ih b).mp h
        refine ⟨text :: before, next, rest, c, rfl, ?_, hn⟩
        rw [List.foldlM_cons, Traced.result_bind, hb]
        exact hc
    · rintro ⟨before, next, rest, c, h, hc, hn⟩
      rcases before with - | ⟨first, before⟩
      · obtain ⟨rfl, rfl⟩ := List.cons.inj h
        obtain rfl := Except.ok.inj hc
        exact .inl hn
      · obtain ⟨rfl, rfl⟩ := List.cons.inj h
        rw [List.foldlM_cons, Traced.result_bind_eq_ok_iff] at hc
        obtain ⟨b, hb, hc⟩ := hc
        exact .inr ⟨b, hb, (ih b).mpr ⟨before, next, rest, c, rfl, hc, hn⟩⟩

theorem below_foldlM {step step' : α → List Char → Outcome α}
    (h : ∀ a text, Below (step a text) (step' a text)) (texts : List (List Char)) (a : α) :
    Below (texts.foldlM step a) (texts.foldlM step' a) := by
  induction texts generalizing a with
  | nil => exact .refl _
  | cons text texts ih =>
    rw [List.foldlM_cons, List.foldlM_cons]
    exact (h a text).bind ih

end Outcomes

/-! ### One text -/

/-- The tag of a value. -/
def valueTag (text : List Char) : List Char := (Marker.split (Text.cut ':' text).1).2

/-- The value of an item. -/
def itemValue (text : List Char) : List Char :=
  if ':' ∈ text then (Text.cut ':' text).2 else text

section Resolve

variable {blocks : List Block} {inner inner' : Block → Outcome Schema}

/-- A text stands for no block, or it is a placeholder, or it only looks like one. -/
theorem result_block?_cases (blocks : List Block) (text : List Char) :
    (block? blocks text).result = .ok none ∨
      (∃ j b, blocks[j]? = some b ∧ placeholder j = text ∧
        (block? blocks text).result = .ok (some b)) ∨
      isReference text = true ∧ ∃ t, (block? blocks text).result
        = .error (.defect (.unknownPlaceholder t)) := by
  rcases hr : isReference text with - | -
  · exact .inl (result_block?_of_not_isReference hr)
  · by_cases h : ∃ j < blocks.length, placeholder j = text
    · obtain ⟨j, hj, rfl⟩ := h
      have hget := List.getElem?_eq_getElem hj
      exact .inr (.inl ⟨j, _, hget, rfl, result_block?_placeholder hget⟩)
    · have hfree : ∀ j < blocks.length, placeholder j ≠ text := fun j hj hp => h ⟨j, hj, hp⟩
      exact .inr (.inr ⟨rfl, _, result_block?_of_unknown hr hfree⟩)

theorem result_block?_eq_some_iff {text : List Char} {b : Block} :
    (block? blocks text).result = .ok (some b) ↔
      ∃ j, blocks[j]? = some b ∧ placeholder j = text := by
  constructor
  · intro h
    rcases result_block?_cases blocks text with e | ⟨j, c, hj, hp, e⟩ | ⟨-, t, e⟩
    · rw [e] at h
      cases h
    · rw [e] at h
      obtain rfl : c = b := by simpa using h
      exact ⟨j, hj, hp⟩
    · rw [e] at h
      cases h
  · rintro ⟨j, hj, rfl⟩
    exact result_block?_placeholder hj

theorem not_circular_block? (text : List Char) : ¬Circular (block? blocks text) := by
  intro h
  rw [Circular] at h
  rcases result_block?_cases blocks text with e | ⟨j, c, -, -, e⟩ | ⟨-, t, e⟩
  · rw [e] at h
    cases h
  · rw [e] at h
    cases h
  · rw [e] at h
    cases h

theorem not_circular_typeOf (tag : List Char) : ¬Circular (typeOf tag) := by
  intro h
  rw [Circular, typeOf] at h
  split at h
  · cases h
  · split at h
    · cases h
    · rcases e : TypeName.ofTag? tag with - | t
      · rw [e] at h
        cases h
      · rw [e] at h
        cases h

theorem not_circular_exampleOf (type : TypeName) (default : List Char) :
    ¬Circular (exampleOf type default) := by
  intro h
  rw [Circular, exampleOf] at h
  split at h
  · cases h
  · split at h
    · cases h
    · rcases e : Default.read type default with f | v
      · rw [e] at h
        cases h
      · rw [e] at h
        cases h

theorem circular_nodeOf_iff {tag : List Char} :
    Circular (nodeOf blocks inner tag) ↔
      ∃ j b, blocks[j]? = some b ∧ placeholder j = tag ∧ Circular (inner b) := by
  rw [nodeOf, circular_bind_iff, or_iff_right (not_circular_block? tag)]
  constructor
  · rintro ⟨found, hf, h⟩
    rcases found with - | b
    · rcases circular_bind_iff.mp h with h | ⟨t, -, h⟩
      · exact absurd h (not_circular_typeOf tag)
      · exact absurd h (not_circular_pure _)
    · obtain ⟨j, hj, hp⟩ := result_block?_eq_some_iff.mp hf
      exact ⟨j, b, hj, hp, h⟩
  · rintro ⟨j, b, hj, hp, h⟩
    exact ⟨some b, result_block?_eq_some_iff.mpr ⟨j, hj, hp⟩, h⟩

theorem circular_resolveValue_iff {text : List Char} :
    Circular (resolveValue blocks inner text) ↔
      ∃ j b, blocks[j]? = some b ∧ placeholder j = valueTag text ∧ Circular (inner b) := by
  rw [resolveValue_eq, circular_bind_iff, circular_nodeOf_iff, or_iff_left, valueTag]
  rintro ⟨node, -, h⟩
  rcases circular_bind_iff.mp h with h | ⟨example?, -, h⟩
  · exact not_circular_exampleOf _ _ h
  · exact not_circular_pure _ h

/-- A text that looks like a placeholder is its own tag. -/
theorem valueTag_itemValue_of_isReference {text : List Char} (h : isReference text = true) :
    valueTag (itemValue text) = text := by
  obtain ⟨ds, rfl, -, hds⟩ := isReference_iff.mp h
  have hcolon : ':' ∉ '$' :: ds := by
    intro hm
    rcases List.mem_cons.mp hm with hc | hm
    · cases hc
    · exact absurd (hds ':' hm) (by decide)
  rw [itemValue, if_neg hcolon, valueTag, Text.cut_of_not_mem hcolon]
  rfl

theorem circular_resolveItem_iff {text : List Char} :
    Circular (resolveItem blocks inner text) ↔
      ∃ j b, blocks[j]? = some b ∧ placeholder j = valueTag (itemValue text) ∧
        Circular (inner b) := by
  rw [resolveItem, circular_bind_iff, or_iff_right (not_circular_block? text)]
  constructor
  · rintro ⟨found, hf, h⟩
    rcases found with - | b
    · exact circular_resolveValue_iff.mp h
    · obtain ⟨j, hj, rfl⟩ := result_block?_eq_some_iff.mp hf
      exact ⟨j, b, hj, (valueTag_itemValue_of_isReference (isReference_placeholder j)).symm, h⟩
  · rintro ⟨j, b, hj, hp, h⟩
    -- the item is a value, or it is the placeholder of the block itself; it cannot be a reference
    -- that is refused, because that would be its own tag
    rcases result_block?_cases blocks text with e | ⟨i, c, hi, rfl, e⟩ | ⟨hr, t, e⟩
    · exact ⟨none, e, circular_resolveValue_iff.mpr ⟨j, b, hj, hp, h⟩⟩
    · rw [valueTag_itemValue_of_isReference (isReference_placeholder i)] at hp
      obtain rfl := placeholder_injective hp
      rw [hi] at hj
      obtain rfl := Option.some.inj hj
      exact ⟨some c, e, h⟩
    · rw [valueTag_itemValue_of_isReference hr] at hp
      rw [result_block?_eq_some_iff.mpr ⟨j, hj, hp⟩] at e
      cases e

/-! ### The pieces of a body -/

variable (blocks inner) in
/-- Resolves one item of an array, and adds it. -/
def itemStep (body : List Char) (items : List Schema) (text : List Char) :
    Outcome (List Schema) :=
  if body ≠ [] ∧ text = [] then reject (.emptyItem (String.ofList body))
  else do
    let item ← resolveItem blocks inner text
    pure (addItem items item)

variable (blocks inner) in
/-- Resolves one property of an object, and sets it. -/
def propertyStep (properties : Table String Schema) (pair : List Char) :
    Outcome (Table String Schema) :=
  if (Text.cut ':' pair).1 = [] then reject (.missingName (String.ofList pair))
  else if mentionsPlaceholder (Text.cut ':' pair).1 then
    reject (.blockInName (String.ofList (Text.cut ':' pair).1))
  else do
    let value ← resolveValue blocks inner (Text.cut ':' pair).2
    pure (properties.set (String.ofList (Text.cut ':' pair).1) value)

theorem resolveItems_eq_foldlM (body : List Char) (items : List Schema)
    (texts : List (List Char)) :
    resolveItems blocks inner body items texts
      = texts.foldlM (itemStep blocks inner body) items := by
  induction texts generalizing items with
  | nil => rfl
  | cons text texts ih =>
    rw [resolveItems, List.foldlM_cons, itemStep]
    split
    · rfl
    · rw [bind_assoc]
      refine congrArg _ (funext fun item => ?_)
      rw [pure_bind, ih]

theorem resolveProperties_eq_foldlM (properties : Table String Schema)
    (pairs : List (List Char)) :
    resolveProperties blocks inner properties pairs
      = pairs.foldlM (propertyStep blocks inner) properties := by
  induction pairs generalizing properties with
  | nil => rfl
  | cons pair pairs ih =>
    rw [resolveProperties, List.foldlM_cons, propertyStep]
    dsimp only
    split
    · rfl
    · split
      · rfl
      · rw [bind_assoc]
        refine congrArg _ (funext fun value => ?_)
        rw [pure_bind, ih]

theorem circular_itemStep_iff {body text : List Char} {items : List Schema} :
    Circular (itemStep blocks inner body items text) ↔
      ¬(body ≠ [] ∧ text = []) ∧ Circular (resolveItem blocks inner text) := by
  rw [itemStep]
  split
  · rename_i h
    exact ⟨fun hc => absurd hc (not_circular_reject _), fun hc => absurd h hc.1⟩
  · rename_i h
    rw [circular_bind_iff, and_iff_right h, or_iff_left]
    rintro ⟨item, -, hc⟩
    exact not_circular_pure _ hc

theorem circular_propertyStep_iff {pair : List Char} {properties : Table String Schema} :
    Circular (propertyStep blocks inner properties pair) ↔
      (Text.cut ':' pair).1 ≠ [] ∧ mentionsPlaceholder (Text.cut ':' pair).1 = false ∧
        Circular (resolveValue blocks inner (Text.cut ':' pair).2) := by
  rw [propertyStep]
  split
  · rename_i h
    exact ⟨fun hc => absurd hc (not_circular_reject _), fun hc => absurd h hc.1⟩
  · rename_i h
    split
    · rename_i hm
      refine ⟨fun hc => absurd hc (not_circular_reject _), fun hc => ?_⟩
      rw [hc.2.1] at hm
      cases hm
    · rename_i hm
      rw [circular_bind_iff, and_iff_right h, and_iff_right (Bool.eq_false_iff.mpr hm),
        or_iff_left]
      rintro ⟨value, -, hc⟩
      exact not_circular_pure _ hc

/-! ### Blocks -/

variable (blocks inner) in
/-- Resolving the block comes to a piece that names block `j`, all pieces before it having
resolved. -/
def LooksUp (b : Block) (j : Nat) : Prop :=
  ∃ before text rest, Text.pieces ',' b.body = before ++ text :: rest ∧
    match b.kind with
    | .array =>
      (∃ items, (before.foldlM (itemStep blocks inner b.body) []).result = .ok items) ∧
        placeholder j = valueTag (itemValue text)
    | .object =>
      (∃ properties, (before.foldlM (propertyStep blocks inner) []).result = .ok properties) ∧
        (Text.cut ':' text).1 ≠ [] ∧ mentionsPlaceholder (Text.cut ':' text).1 = false ∧
          placeholder j = valueTag (Text.cut ':' text).2

theorem circular_resolveBody_array_iff {body : List Char} :
    Circular (resolveBody blocks inner ⟨.array, body⟩) ↔
      Circular ((Text.pieces ',' body).foldlM (itemStep blocks inner body) []) := by
  rw [resolveBody, ← resolveItems_eq_foldlM, circular_bind_iff, or_iff_left]
  rintro ⟨items, -, h⟩
  exact not_circular_pure _ h

theorem circular_resolveBody_object_iff {body : List Char} :
    Circular (resolveBody blocks inner ⟨.object, body⟩) ↔
      Circular ((Text.pieces ',' body).foldlM (propertyStep blocks inner) []) := by
  rw [resolveBody, ← resolveProperties_eq_foldlM]
  dsimp only
  split
  · rename_i h
    subst h
    constructor
    · intro h
      cases h
    · intro h
      cases h
  · rw [circular_bind_iff, or_iff_left]
    rintro ⟨properties, -, h⟩
    exact not_circular_pure _ h

/-- **What makes a block circular.**  Resolving a block is circular exactly when resolving one of
the blocks that it looks up is. -/
theorem circular_resolveBody_iff {b : Block} :
    Circular (resolveBody blocks inner b) ↔
      ∃ j c, blocks[j]? = some c ∧ LooksUp blocks inner b j ∧ Circular (inner c) := by
  obtain ⟨kind, body⟩ := b
  cases kind with
  | array =>
    rw [circular_resolveBody_array_iff, circular_foldlM_iff]
    constructor
    · rintro ⟨before, text, rest, items, hp, hi, h⟩
      obtain ⟨-, h⟩ := circular_itemStep_iff.mp h
      obtain ⟨j, c, hj, ht, hc⟩ := circular_resolveItem_iff.mp h
      exact ⟨j, c, hj, ⟨before, text, rest, hp, ⟨items, hi⟩, ht⟩, hc⟩
    · rintro ⟨j, c, hj, ⟨before, text, rest, hp, ⟨items, hi⟩, ht⟩, hc⟩
      refine ⟨before, text, rest, items, hp, hi, circular_itemStep_iff.mpr ⟨?_, ?_⟩⟩
      · -- an empty text names no block
        rintro ⟨-, rfl⟩
        cases ht
      · exact circular_resolveItem_iff.mpr ⟨j, c, hj, ht, hc⟩
  | object =>
    rw [circular_resolveBody_object_iff, circular_foldlM_iff]
    constructor
    · rintro ⟨before, text, rest, properties, hp, hi, h⟩
      obtain ⟨hn, hm, h⟩ := circular_propertyStep_iff.mp h
      obtain ⟨j, c, hj, ht, hc⟩ := circular_resolveValue_iff.mp h
      exact ⟨j, c, hj, ⟨before, text, rest, hp, ⟨properties, hi⟩, hn, hm, ht⟩, hc⟩
    · rintro ⟨j, c, hj, ⟨before, text, rest, hp, ⟨properties, hi⟩, hn, hm, ht⟩, hc⟩
      exact ⟨before, text, rest, properties, hp, hi, circular_propertyStep_iff.mpr
        ⟨hn, hm, circular_resolveValue_iff.mpr ⟨j, c, hj, ht, hc⟩⟩⟩

/-! ### More depth -/

section Below

variable (h : ∀ b, Below (inner b) (inner' b))
include h

theorem below_nodeOf (tag : List Char) :
    Below (nodeOf blocks inner tag) (nodeOf blocks inner' tag) := by
  refine (Below.refl _).bind fun found => ?_
  rcases found with - | b
  · exact .refl _
  · exact h b

theorem below_resolveValue (text : List Char) :
    Below (resolveValue blocks inner text) (resolveValue blocks inner' text) := by
  rw [resolveValue_eq, resolveValue_eq]
  exact (below_nodeOf h _).bind fun node => .refl _

theorem below_resolveItem (text : List Char) :
    Below (resolveItem blocks inner text) (resolveItem blocks inner' text) := by
  refine (Below.refl _).bind fun found => ?_
  rcases found with - | b
  · exact below_resolveValue h _
  · exact h b

theorem below_itemStep (body : List Char) (items : List Schema) (text : List Char) :
    Below (itemStep blocks inner body items text) (itemStep blocks inner' body items text) := by
  rw [itemStep, itemStep]
  split
  · exact .refl _
  · exact (below_resolveItem h text).bind fun item => .refl _

theorem below_propertyStep (properties : Table String Schema) (pair : List Char) :
    Below (propertyStep blocks inner properties pair)
      (propertyStep blocks inner' properties pair) := by
  rw [propertyStep, propertyStep]
  split
  · exact .refl _
  · split
    · exact .refl _
    · exact (below_resolveValue h _).bind fun value => .refl _

theorem below_resolveBody (b : Block) :
    Below (resolveBody blocks inner b) (resolveBody blocks inner' b) := by
  rcases e : b.kind with - | -
  · rw [resolveBody, resolveBody, e]
    dsimp only
    split
    · exact .refl _
    · rw [resolveProperties_eq_foldlM, resolveProperties_eq_foldlM]
      exact (below_foldlM (below_propertyStep h) _ _).bind fun properties => .refl _
  · rw [resolveBody, resolveBody, e]
    dsimp only
    rw [resolveItems_eq_foldlM, resolveItems_eq_foldlM]
    exact (below_foldlM (below_itemStep h b.body) _ _).bind fun items => .refl _

end Below

/-- More depth changes nothing but circular outcomes. -/
theorem below_resolveBlock {depth depth' : Nat} (h : depth ≤ depth') (b : Block) :
    Below (resolveBlock blocks depth b) (resolveBlock blocks depth' b) := by
  induction depth generalizing depth' b with
  | zero => exact .inl rfl
  | succ depth ih =>
    obtain ⟨n, rfl⟩ : ∃ n, depth' = n + 1 := ⟨depth' - 1, by omega⟩
    exact below_resolveBody (fun c => ih (Nat.le_of_succ_le_succ h) c) b

end Resolve

end ApiOutline.Shape
