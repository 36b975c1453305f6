/-
ApiOutline/Proofs/Denotation.lean

Compiling a written tree gives the schema that the tree denotes.

Design.  Read sign by sign, a core is its tag or one block, so that reading
follows the tree: at each separator the rows come apart where the tree puts them
together (`cut_value`, `splitMarker_marked`, `pieces_joined`).  There is one lemma
about reading for each form of a tree, and the induction only puts them together
(`Item.denotes`).  That the compiler agrees with reading was shown for all nested
texts in which no block is captured, and in a written tree none is.

Main result: `compile_eq_denote`.
-/
import ApiOutline.Proofs.TreeText

namespace ApiOutline

open Sign

namespace Outline

/-! ### Repetitions -/

theorem foldl_addItem (nodes kept : List Schema) :
    nodes.foldl Shape.addItem kept =
      List.eraseDupsBy.loop (fun node kept => kept.alike node) nodes kept.reverse := by
  induction nodes generalizing kept with
  | nil => rw [List.foldl_nil, List.eraseDupsBy.loop, List.reverse_reverse]
  | cons node nodes ih =>
    rw [List.foldl_cons, List.eraseDupsBy.loop, Shape.addItem, List.any_reverse]
    split
    · rename_i h
      rw [h, ih]
    · rename_i h
      rw [Bool.eq_false_iff.mpr h, ih, List.reverse_append]
      rfl

theorem keys_latest (entries : List (String × Schema)) :
    Table.keys (latest entries) = (entries.map Prod.fst).eraseDups := by
  have h : ∀ names : List String, (∀ n ∈ names, n ∈ entries.map Prod.fst) →
      Table.keys (names.filterMap fun name =>
        (entries.reverse.find? fun e => e.1 = name).map fun e => (name, e.2)) = names := by
    intro names hn
    induction names with
    | nil => rfl
    | cons n names ih =>
      obtain ⟨e, he, rfl⟩ := List.mem_map.mp (hn n (by simp))
      rcases hf : entries.reverse.find? fun d => d.1 = e.1 with - | d
      · simpa using List.find?_eq_none.mp hf e (by simpa using he)
      · rw [List.filterMap_cons, hf]
        exact congrArg (e.1 :: ·) (ih fun m hm => hn m (by simp [hm]))
  exact h _ fun n hn => List.mem_eraseDups.mp hn

theorem get?_filterMap (f : String → Option Schema) (names : List String) (key : String) :
    Table.get? (names.filterMap fun name => (f name).map fun s => (name, s)) key =
      if key ∈ names then f key else none := by
  induction names with
  | nil => rfl
  | cons n names ih =>
    rcases hf : f n with - | s
    · by_cases hk : key = n
      · subst hk
        simp [hf, ih]
      · simp [hf, ih, hk]
    · by_cases hk : n = key
      · subst hk
        simp [hf, Table.get?]
      · simp [hf, Table.get?, ih, hk, Ne.symm hk]

theorem ofEntries_eq_latest (entries : List (String × Schema)) :
    Table.ofEntries entries = latest entries := by
  refine Table.ext (Table.nodup_keys_ofEntries entries) ?_ fun key => ?_
  · rw [Table.keys_ofEntries, keys_latest]
  · -- under a key that is there stands what was given last, and under any other key nothing
    have hget := get?_filterMap
      (fun name => (entries.reverse.find? fun e => e.1 = name).map Prod.snd)
      (entries.map Prod.fst).eraseDups key
    simp only [Option.map_map] at hget
    rw [Table.get?_ofEntries]
    refine Eq.trans ?_ hget.symm
    split
    · rfl
    · rename_i hk
      rcases hf : entries.reverse.find? fun e => e.1 = key with - | e
      · rw [hf]
        rfl
      · have he := List.find?_some hf
        have hm := List.mem_of_find?_eq_some hf
        refine absurd (List.mem_eraseDups.mpr (List.mem_map.mpr ⟨e, ?_, ?_⟩)) hk
        · simpa using hm
        · simpa using he

/-! ### The rows of a tree -/

/-- The signs of a nested text, each block being what is read from it. -/
abbrev row (t : Nested) : List (Sign Reading) := t.signs Shape.readBody

theorem row_value (marker : Option Marker) (core : Core) (default : Word) :
    row (Value.mk marker core default).nested =
      ((markerText marker).map .char ++ row core.nested) ++ (defaultText default).map .char := by
  rw [Value.nested, row, Nested.signs_append, Nested.signs_append, markerNested, defaultNested,
    Nested.signs_ofChars, Nested.signs_ofChars, List.append_assoc]

theorem row_unnamed (marker : Option Marker) (core : Core) :
    row (Item.unnamed marker core).nested = (markerText marker).map .char ++ row core.nested := by
  rw [Item.nested, row, Nested.signs_append, markerNested, Nested.signs_ofChars]

theorem row_named (name : Name) (value : Value) :
    row (Item.named name value).nested =
      name.chars.map .char ++ .char ':' :: row value.nested := by
  rw [Item.nested, row, Nested.signs_append, Nested.signs_ofChars, Nested.signs]

/-- The only sign of a core that is an object or array is a block. -/
theorem row_of_isBlock {core : Core} (h : core.isBlock = true) :
    ∃ r, row core.nested = [.block r] := by
  cases core with
  | tag name => cases h
  | object properties => exact ⟨_, rfl⟩
  | array items => exact ⟨_, rfl⟩

theorem row_of_tag (name : Name) : row (Core.tag name).nested = name.chars.map .char := by
  rw [Core.nested, row, Nested.signs_ofChars]

/-- Neither a comma nor a colon stands in a core outside its blocks. -/
theorem hasChar_core {sep : Char} (hs : sep = ':' ∨ sep = ',') (core : Core) :
    hasChar sep (row core.nested) = false := by
  cases core with
  | tag name =>
    rw [row_of_tag]
    refine hasChar_map_char ?_
    rcases hs with rfl | rfl
    · exact name.noColon
    · exact name.comma_not_mem
  | object properties => rfl
  | array items => rfl

theorem hasChar_marked {sep : Char} (hs : sep = ':' ∨ sep = ',') (marker : Option Marker)
    (core : Core) : hasChar sep ((markerText marker).map .char ++ row core.nested) = false := by
  rw [hasChar_append, hasChar_core hs, Bool.or_false]
  refine hasChar_map_char fun h => ?_
  rcases mem_markerText h with rfl | rfl <;> simp at hs

theorem hasChar_value (value : Value) : hasChar ',' (row value.nested) = false := by
  obtain ⟨marker, core, default⟩ := value
  rw [row_value, hasChar_append, hasChar_marked (.inr rfl), Bool.false_or]
  refine hasChar_map_char fun h => ?_
  rw [defaultText] at h
  split at h
  · cases h
  · rcases List.mem_cons.mp h with h | h
    · cases h
    · exact default.comma_not_mem h

theorem hasChar_named (name : Name) (value : Value) :
    hasChar ',' (name.chars.map .char ++ .char ':' :: row value.nested) = false := by
  rw [hasChar_append, hasChar_cons, hasChar_value,
    hasChar_map_char name.comma_not_mem]
  rfl

theorem hasChar_item (item : Item) : hasChar ',' (row item.nested) = false := by
  cases item with
  | unnamed marker core => rw [row_unnamed, hasChar_marked (.inr rfl)]
  | named name value => rw [row_named, hasChar_named]

/-- The first colon of a value stands in front of its default. -/
theorem cut_value (marker : Option Marker) (core : Core) (default : Word) :
    cut ':' (row (Value.mk marker core default).nested) =
      ((markerText marker).map .char ++ row core.nested, default.chars.map .char) := by
  have hmarked := hasChar_marked (.inl rfl) marker core
  rw [row_value, defaultText]
  split
  · rename_i h
    rw [h, List.map_nil, List.append_nil, cut_of_hasChar hmarked]
  · rw [List.map_cons, cut_append hmarked]

/-- The marker of a value is read as a marker, and nothing else is. -/
theorem splitMarker_marked {marker : Option Marker} {core : Core}
    (h : tagFits marker core = true) :
    splitMarker ((markerText marker).map .char ++ row core.nested) = (marker, row core.nested) := by
  rcases marker with - | m
  · rw [markerText, List.map_nil, List.nil_append]
    cases core with
    | tag name =>
      rw [row_of_tag]
      rcases hn : name.chars with - | ⟨c, cs⟩
      · rfl
      · -- the tag must not start like a marker
        have hc : Marker.ofChar? c = none := by simpa [tagFits, hn] using h
        rw [List.map_cons, splitMarker, hc]
    | object properties => rfl
    | array items => rfl
  · cases m <;> rfl

/-! ### Reading follows the tree -/

/-- What is read from a row, the wording of a fault apart, is what a tree denotes. -/
def Denotes {α : Type} (r : Except Flaw α) (d : Except LiteralFault α) : Prop :=
  r = d.mapError .literal

namespace Denotes

variable {α β : Type} {r : Except Flaw α} {d : Except LiteralFault α}

theorem ok (a : α) : Denotes (.ok a) (.ok a) := rfl

theorem bind {f : α → Except Flaw β} {g : α → Except LiteralFault β} (h : Denotes r d)
    (hf : ∀ a, Denotes (f a) (g a)) : Denotes (r >>= f) (d >>= g) := by
  rw [Denotes] at h
  subst h
  rcases d with e | a
  · rfl
  · exact hf a

end Denotes

open Shape

theorem denotes_readExample (type : TypeName) (default : Word) :
    Denotes (readExample type (default.chars.map .char))
      (exampleOf type default) := by
  rw [Denotes, readExample, chars?_map_char, exampleOf]
  dsimp only
  split
  · rfl
  · rcases Default.read type default.chars with f | v <;> rfl

theorem denotes_readValue {marker : Option Marker} {core : Core} (h : tagFits marker core = true)
    (hcore : Denotes (readTag (row core.nested)) core.denote) (default : Word) :
    Denotes (readValue (row (Value.mk marker core default).nested))
      (Value.mk marker core default).denote := by
  rw [readValue, cut_value, splitMarker_marked h, Value.denote]
  refine hcore.bind fun node => ?_
  rw [annotate]
  exact (denotes_readExample node.type default).bind fun example? => .ok _

/-- The word that stands for no default. -/
def noDefault : Word := ⟨[], rfl⟩

theorem row_unnamed_eq_value (marker : Option Marker) (core : Core) :
    row (Item.unnamed marker core).nested = row (Value.mk marker core noDefault).nested := by
  rw [row_unnamed, row_value, defaultText, noDefault, if_pos rfl, List.map_nil, List.append_nil]

theorem sole?_cons_char (c : Char) (ss : List (Sign Reading)) : sole? (.char c :: ss) = none := by
  cases ss <;> rfl

/-- Only an object or array without marker is a block by itself. -/
theorem sole?_marked {marker : Option Marker} {core : Core}
    (h : ¬(marker = none ∧ core.isBlock = true)) :
    sole? ((markerText marker).map .char ++ row core.nested) = none := by
  rcases marker with - | m
  · cases core with
    | tag name =>
      rw [row_of_tag, markerText, List.map_nil, List.nil_append]
      rcases name.chars with - | ⟨c, cs⟩
      · rfl
      · exact sole?_cons_char c _
    | object properties => exact absurd ⟨rfl, rfl⟩ h
    | array items => exact absurd ⟨rfl, rfl⟩ h
  · cases m <;> exact sole?_cons_char _ _

theorem denotes_readItem_unnamed {marker : Option Marker} {core : Core}
    (h : tagFits marker core = true)
    (hcore : Denotes (readTag (row core.nested)) core.denote) :
    Denotes (readItem (row (Item.unnamed marker core).nested))
      (Item.unnamed marker core).denote := by
  rw [Item.denote]
  by_cases hb : marker = none ∧ core.isBlock = true
  · obtain ⟨rfl, hb⟩ := hb
    obtain ⟨r, hr⟩ := row_of_isBlock hb
    rw [hr] at hcore
    simp only [hb, and_self, if_true, bind_pure]
    rw [row_unnamed, hr]
    exact hcore
  · -- any other item without name is a value without default
    simp only [if_neg hb]
    rw [row_unnamed, readItem, sole?_marked hb, after, hasChar_marked (.inl rfl), ← row_unnamed,
      row_unnamed_eq_value]
    exact denotes_readValue h hcore noDefault

theorem sole?_append_char (a : List Char) (c : Char) (ss : List (Sign Reading)) :
    sole? (a.map .char ++ .char c :: ss) = none := by
  cases a with
  | nil => exact sole?_cons_char c ss
  | cons d a => exact sole?_cons_char d _

theorem denotes_readItem_named (name : Name) {value : Value}
    (hvalue : Denotes (readValue (row value.nested)) value.denote) :
    Denotes (readItem (row (Item.named name value).nested)) (Item.named name value).denote := by
  have hcolon : hasChar ':' (name.chars.map .char ++ .char ':' :: row value.nested) = true := by
    rw [hasChar_append, hasChar_cons, isChar_char, decide_eq_true rfl, Bool.true_or, Bool.or_true]
  have hcut : cut ':' (name.chars.map .char ++ .char ':' :: row value.nested) =
      (name.chars.map .char, row value.nested) :=
    cut_append (hasChar_map_char name.noColon) _
  rw [row_named, readItem, sole?_append_char, after, hcolon, hcut, Item.denote]
  exact hvalue

theorem denotes_readProperty {name : Name} (hname : name.chars ≠ []) {value : Value}
    (hvalue : Denotes (readValue (row value.nested)) value.denote) :
    Denotes (readProperty (row (Item.named name value).nested))
      (do let node ← value.denote; pure (String.ofList name.chars, node)) := by
  rw [row_named, readProperty, cut_append (hasChar_map_char name.noColon), chars?_map_char]
  dsimp only
  rw [if_neg hname]
  exact hvalue.bind fun node => .ok _

theorem propertiesNested_cons (name : Name) (value : Value) (properties : List (Name × Value)) :
    propertiesNested ((name, value) :: properties) =
      (Item.named name value).nested :: propertiesNested properties := by
  rw [propertiesNested, Item.nested]

theorem hasChar_propertiesNested (properties : List (Name × Value)) :
    ∀ t ∈ propertiesNested properties, hasChar ',' (row t) = false := by
  induction properties with
  | nil => simp [propertiesNested]
  | cons property properties ih =>
    obtain ⟨name, value⟩ := property
    rw [propertiesNested_cons]
    exact List.forall_mem_cons.mpr ⟨hasChar_item _, ih⟩

theorem hasChar_itemsNested (items : List Item) :
    ∀ t ∈ itemsNested items, hasChar ',' (row t) = false := by
  induction items with
  | nil => simp [itemsNested]
  | cons item items ih =>
    rw [itemsNested]
    exact List.forall_mem_cons.mpr ⟨hasChar_item item, ih⟩

theorem signs_eq_nil_iff (t : Nested) : row t = [] ↔ t.text = [] := by
  cases t <;> simp [row, Nested.signs, Nested.text]

/-- A tag is read as the type that it names. -/
theorem denotes_readTag_tag (name : Name) :
    Denotes (readTag (row (Core.tag name).nested)) (Core.tag name).denote := by
  have hs : sole? ((markerText none).map .char ++ row (Core.tag name).nested) = none :=
    sole?_marked fun h => by cases h.2
  rw [markerText, List.map_nil, List.nil_append] at hs
  rw [readTag, hs, row_of_tag, chars?_map_char, Core.denote]
  exact .ok _

theorem denotes_readTag_object {properties : List (Name × Value)}
    (h : Denotes (((propertiesNested properties).map row).mapM readProperty)
      (propertiesDenote properties)) :
    Denotes (readTag (row (Core.object properties).nested)) (Core.object properties).denote := by
  show Denotes (readBody .object (row (.joined (propertiesNested properties)))) _
  rw [readBody, Core.denote]
  rcases properties with - | ⟨⟨name, value⟩, properties⟩
  · exact .ok _
  · have hne : propertiesNested ((name, value) :: properties) ≠ [] := by
      simp [propertiesNested]
    have hpieces := pieces_joined readBody hne (hasChar_propertiesNested _)
    have hrow : (row (.joined (propertiesNested ((name, value) :: properties)))).isEmpty
        = false := by
      -- a property has a colon, so that the row of the object is not empty
      rw [List.isEmpty_eq_false_iff]
      intro he
      have hfirst : [] = row (Item.named name value).nested := by
        rw [← row, he, propertiesNested_cons] at hpieces
        exact (List.cons.inj hpieces).1
      rw [row_named] at hfirst
      simp at hfirst
    rw [hrow, hpieces]
    refine h.bind fun entries => ?_
    rw [ofEntries_eq_latest]
    exact .ok _

/-- An element is read as an item, unless it is empty beside others. -/
theorem readElement_eq {body ss : List (Sign Reading)} (h : ss = body ∨ ss ≠ []) :
    readElement body ss = readItem ss := by
  refine if_neg ?_
  rcases h with rfl | h
  · simp
  · simp [h]

theorem denotes_readTag_array {items : List Item}
    (hfit : items.length ≤ 1 ∨ ∀ cs ∈ itemTexts items, cs ≠ [])
    (h : Denotes (((itemsNested items).map row).mapM readItem) (itemsDenote items)) :
    Denotes (readTag (row (Core.array items).nested)) (Core.array items).denote := by
  show Denotes (readBody .array (row (.joined (itemsNested items)))) _
  rw [readBody, Core.denote]
  rcases items with - | ⟨item, items⟩
  · exact .ok _
  · have hne : itemsNested (item :: items) ≠ [] := by
      simp [itemsNested]
    have hpieces := pieces_joined readBody hne (hasChar_itemsNested _)
    have helement : ((itemsNested (item :: items)).map row).mapM
        (readElement (row (.joined (itemsNested (item :: items))))) =
        ((itemsNested (item :: items)).map row).mapM readItem := by
      refine mapM_congr fun ss hss => ?_
      obtain ⟨t, ht, rfl⟩ := List.mem_map.mp hss
      refine readElement_eq ?_
      -- an empty item is the only one
      rcases hfit with hone | hfull
      · obtain rfl : items = [] := by simpa using hone
        obtain rfl := List.mem_singleton.mp ht
        exact .inl rfl
      · right
        rw [Ne, signs_eq_nil_iff]
        refine hfull t.text ?_
        rw [← texts_itemsNested]
        exact List.mem_map_of_mem ht
    rw [hpieces, helement]
    refine h.bind fun nodes => ?_
    rw [foldl_addItem]
    exact .ok _

mutual

/-- Reading the row of a core gives what the core denotes. -/
theorem Core.denotes : (core : Core) → core.wellFormed = true →
    Denotes (readTag (row core.nested)) core.denote
  | .tag name => fun _ => by
    exact denotes_readTag_tag name
  | .object properties => fun h => by
    rw [Core.wellFormed] at h
    exact denotes_readTag_object (denotes_properties properties h)
  | .array items => fun h => by
    simp only [Core.wellFormed, Bool.and_eq_true, Bool.or_eq_true, decide_eq_true_eq,
      List.all_eq_true] at h
    exact denotes_readTag_array h.2 (denotes_items items h.1)

theorem Value.denotes : (value : Value) → value.wellFormed = true →
    Denotes (readValue (row value.nested)) value.denote
  | .mk marker core default => fun h => by
    rw [Value.wellFormed, Bool.and_eq_true] at h
    exact denotes_readValue h.1 (Core.denotes core h.2) default

theorem Item.denotes : (item : Item) → item.wellFormed = true →
    Denotes (readItem (row item.nested)) item.denote
  | .unnamed marker core => fun h => by
    rw [Item.wellFormed, Bool.and_eq_true] at h
    exact denotes_readItem_unnamed h.1 (Core.denotes core h.2)
  | .named name value => fun h => by
    rw [Item.wellFormed] at h
    exact denotes_readItem_named name (Value.denotes value h)

theorem denotes_properties : (properties : List (Name × Value)) →
    propertiesWellFormed properties = true →
    Denotes (((propertiesNested properties).map row).mapM readProperty)
      (propertiesDenote properties)
  | [] => fun _ => by
    rw [propertiesDenote]
    exact .ok _
  | (name, value) :: properties => fun h => by
    rw [propertiesWellFormed, Bool.and_eq_true, Bool.and_eq_true, decide_eq_true_eq] at h
    have hproperty := denotes_readProperty h.1.1 (Value.denotes value h.1.2)
    rw [propertiesNested_cons, List.map_cons, List.mapM_cons, propertiesDenote]
    have hall := hproperty.bind fun entry =>
      (denotes_properties properties h.2).bind fun entries => .ok (entry :: entries)
    rw [bind_assoc] at hall
    exact hall

theorem denotes_items : (items : List Item) → itemsWellFormed items = true →
    Denotes (((itemsNested items).map row).mapM readItem) (itemsDenote items)
  | [] => fun _ => by
    rw [itemsDenote]
    exact .ok _
  | item :: items => fun h => by
    rw [itemsWellFormed, Bool.and_eq_true] at h
    rw [itemsNested, List.map_cons, List.mapM_cons, itemsDenote]
    exact (Item.denotes item h.1).bind fun node =>
      (denotes_items items h.2).bind fun nodes => .ok (node :: nodes)

end

/-! ### Compiling a written tree -/

/-- **Compiling denotes.**  However blanks are strewn into a written tree, compiling the text
gives the schema that the tree denotes; if the tree denotes none, the text is malformed, and the
complaint is about the default literal that is at fault. -/
theorem compile_eq_denote {item : Item} (h : item.wellFormed = true) {text : String}
    (htext : Text.squeeze text.toList = item.text) :
    (Shape.compile text).result =
      item.denote.mapError fun f => .malformed (String.ofList item.text) (.literal f) := by
  have htidy := Item.tidy_nested item
  have hagrees := Shape.compileSource_agrees_reading (Nested.not_mem_text_of_tidy htidy)
    (Nested.capturesFrom_of_tidy htidy _ 0)
  rw [Nested.reading, Item.denotes item h, Item.text_nested] at hagrees
  rw [Shape.compile, htext]
  rcases hd : item.denote with f | s
  · rw [hd] at hagrees
    obtain ⟨stop, hstop, hflaw⟩ := Shape.Agrees.error_iff.mp hagrees
    obtain rfl := Shape.Stop.eq_of_flaw?_literal hflaw
    simp only [hstop]
    rfl
  · rw [hd] at hagrees
    simp only [Shape.Agrees.ok_iff.mp hagrees]
    rfl

/-- An order with tags, in which the name `id` is given twice, the second time with a default. -/
def taggedOrder : Item :=
  .unnamed none <| .object
    [(⟨⟨['i', 'd'], rfl⟩, by decide⟩,
        .mk none (.tag ⟨⟨['s'], rfl⟩, by decide⟩) noDefault),
      (⟨⟨['t', 'a', 'g', 's'], rfl⟩, by decide⟩,
        .mk (some .optional)
          (.array
            [.unnamed none (.tag ⟨⟨['s'], rfl⟩, by decide⟩),
              .unnamed none (.object
                [(⟨⟨['o', 'n'], rfl⟩, by decide⟩,
                  .mk (some .required) (.tag ⟨⟨['b'], rfl⟩, by decide⟩)
                    ⟨['t', 'r', 'u', 'e'], rfl⟩)]),
              .unnamed none (.tag ⟨⟨['s'], rfl⟩, by decide⟩)])
          noDefault),
      (⟨⟨['i', 'd'], rfl⟩, by decide⟩,
        .mk none (.tag ⟨⟨['i'], rfl⟩, by decide⟩) ⟨['7'], rfl⟩)]

theorem compile_taggedOrder :
    taggedOrder.wellFormed = true ∧
      Text.squeeze "{id: s, tags: ?[s, {on: +b:true}, s], id: i:7}".toList = taggedOrder.text ∧
      (Shape.compile "{id: s, tags: ?[s, {on: +b:true}, s], id: i:7}").result =
        .ok (.object
          [("id", .plain .integer ⟨some (.integer 7), some true⟩),
            ("tags", .array
              [.plain .string ⟨none, some true⟩,
                .object [("on", .plain .boolean ⟨some (.boolean true), some true⟩)] {}]
              ⟨none, some false⟩)] {}) := by
  have hw : taggedOrder.wellFormed = true := by decide
  have ht : Text.squeeze "{id: s, tags: ?[s, {on: +b:true}, s], id: i:7}".toList =
      taggedOrder.text := by
    decide
  exact ⟨hw, ht, (compile_eq_denote hw ht).trans (by rfl)⟩

end Outline

end ApiOutline
