/-
ApiOutline/Proofs/NodeForm.lean

The form of compiled nodes.

Design.  A node comes from a text of the flattened outline, and where the text stands decides
what the node must say (`Site`).  `IsNode` lists the forms that a written node can have: a
plain type, an object made from the pairs of a block, or an array made from the items of a
block.  Whether it says that it is required depends on the site alone: only a bare block
says nothing.

A block is resolved without knowing its site, so the form of what is inside comes first
(`IsBlock`), by induction on the depth to which blocks are resolved; the site adds a note.
Nothing is asked of the outline: a placeholder that the writer put there stands for its
block like any other.

Main result: `compile_isNode`.
-/
import Mathlib
import ApiOutline.Proofs.Lookup
import ApiOutline.Proofs.NodeEquality

namespace ApiOutline.Shape

open Text Block

/-! ### Sites -/

/-- Where a node stands in an outline, and the text that stands there for it. -/
inductive Site where
  | root (text : List Char)
  | item (text : List Char)
  | property (value : List Char)

namespace Site

/-- The site has a placeholder and nothing else, where a name may be left out. -/
def isBare : Site → Bool
  | root text => isReference text
  | item text => isReference text
  | property _ => false

/-- The value that the text gives, its name left out. -/
def value : Site → List Char
  | root text => itemValue text
  | item text => itemValue text
  | property value => value

/-- The block with which the value begins. -/
def Holds (blocks : List Block) (site : Site) (b : Block) : Prop :=
  ∃ j, blocks[j]? = some b ∧ placeholder j = valueTag site.value

/-- The field that marks the root. -/
def description : Site → List (String × Json)
  | root _ => [("description", .text "")]
  | _ => []

/-- What a node of the given type says at the site: an example that fits the type, and whether the
node is required.  A bare block says nothing. -/
structure Says (site : Site) (type : TypeName) (n : Note) : Prop where
  example_fits : n.Fits type
  required : n.required?.isSome = !site.isBare
  bare : site.isBare = true → n.example? = none

end Site

/-! ### Written nodes -/

/-- The options of an array are one item, or several in a choice, no two of them equal. -/
def IsChoice (items : Json) (options : List Json) : Prop :=
  options.Pairwise (fun v w => v.same w = false) ∧
    (options = [items] ∨ 2 ≤ options.length ∧ items = .object [("oneOf", .array options)])

mutual

/-- The value is a node in one of its forms. -/
inductive IsNode (blocks : List Block) : Site → Json → Prop
  /-- a plain type, at a site that is no bare block -/
  | plain (site : Site) (type : TypeName) (n : Note) (hn : site.Says type n)
      (hbare : site.isBare = false) :
      IsNode blocks site (.object (("type", .text type.name) :: n.fields ++ site.description))
  /-- an object, whose properties come from the pairs of the block at the site -/
  | object (site : Site) (b : Block) (properties : Table String Json) (n : Note)
      (hn : site.Says .object n) (hb : site.Holds blocks b) (hkind : b.kind = .object)
      (hkeys : (Table.keys properties).Nodup)
      (hproperties : ∀ p ∈ properties, IsProperty blocks b p.1 p.2) :
      IsNode blocks site (.object (("type", .text "object") ::
        ("properties", .object properties) :: n.fields ++ site.description))
  /-- an array, whose options come from the items of the block at the site -/
  | array (site : Site) (b : Block) (items : Json) (options : List Json) (n : Note)
      (hn : site.Says .array n) (hb : site.Holds blocks b) (hkind : b.kind = .array)
      (hchoice : IsChoice items options) (hoptions : ∀ v ∈ options, IsItem blocks b v) :
      IsNode blocks site (.object (("type", .text "array") ::
        ("items", items) :: n.fields ++ site.description))

/-- The value is a node that a pair of a block gives, under its name. -/
inductive IsProperty (blocks : List Block) : Block → String → Json → Prop
  | pair {b : Block} {pair : List Char} (hpair : pair ∈ pieces ',' b.body) {v : Json}
      (hv : IsNode blocks (.property (cut ':' pair).2) v) :
      IsProperty blocks b (String.ofList (cut ':' pair).1) v

/-- The value is a node that an item of a block gives. -/
inductive IsItem (blocks : List Block) : Block → Json → Prop
  | item {b : Block} {text : List Char} (htext : text ∈ pieces ',' b.body) {v : Json}
      (hv : IsNode blocks (.item text) v) : IsItem blocks b v

end

/-! ### Examples -/

/-- A default that is read at a type fits the type. -/
theorem fits_of_read {type : TypeName} {literal : List Char} (hne : literal ≠ []) {v : Scalar}
    (h : Default.read type literal = .ok v) : v.Fits type := by
  have htext : String.ofList literal ≠ "" := by
    intro h
    apply hne
    simpa using congrArg String.toList h
  cases type with
  | integer =>
    rw [Default.read, Default.readInteger] at h
    split at h
    · obtain rfl := Except.ok.inj h
      exact .integer _
    · split at h
      · cases h
      · split at h
        · obtain rfl := Except.ok.inj h
          exact .integer _
        · cases h
  | number =>
    rw [Default.read, Default.readNumber] at h
    split at h
    · obtain rfl := Except.ok.inj h
      exact .whole _
    · split at h
      · cases h
      · split at h
        · rename_i hfinite
          obtain rfl := Except.ok.inj h
          exact .number hfinite
        · cases h
  | boolean =>
    obtain rfl := Except.ok.inj h
    exact .boolean _
  | string =>
    obtain rfl := Except.ok.inj h
    exact .string htext
  | object =>
    obtain rfl := Except.ok.inj h
    exact .object htext
  | array =>
    obtain rfl := Except.ok.inj h
    exact .array htext

/-- The example that a default gives fits the type. -/
theorem fits_of_exampleOf {type : TypeName} {default : List Char} {e : Option Scalar}
    (h : (exampleOf type default).result = .ok e) (r : Option Bool) :
    Note.Fits type ⟨e, r⟩ := by
  rintro v rfl
  rw [exampleOf] at h
  split at h
  · cases h
  · rename_i hne
    split at h
    · cases h
    · rcases hread : Default.read type default with f | w
      · rw [hread] at h
        cases h
      · rw [hread] at h
        obtain rfl := Option.some.inj (Except.ok.inj h)
        exact fits_of_read hne hread

/-! ### Nodes made from a block -/

/-- The node at a site, as it is written there. -/
def Site.written (site : Site) (s : Schema) : Json := .object (s.fields ++ site.description)

section Parts

variable (blocks : List Block) (b : Block)

/-- The nodes are items of the block, no two of them alike. -/
structure ItemsOf (items : List Schema) : Prop where
  distinct : items.Pairwise fun s t => s.alike t = false
  fit : ∀ s ∈ items, s.Fit
  nodes : ∀ s ∈ items, IsItem blocks b s.toJson

/-- The nodes are properties of the block, no two of one name. -/
structure PropertiesOf (properties : Table String Schema) : Prop where
  keys : properties.keys.Nodup
  fit : ∀ p ∈ properties, p.2.Fit
  nodes : ∀ p ∈ properties, IsProperty blocks b p.1 p.2.toJson

/-- The node is made from what a block holds, whatever its note. -/
inductive IsBody : Schema → Prop
  | object (hkind : b.kind = .object) {properties : Table String Schema}
      (hproperties : PropertiesOf blocks b properties) (n : Note) : IsBody (.object properties n)
  | array (hkind : b.kind = .array) {items : List Schema} (hne : items ≠ [])
      (hitems : ItemsOf blocks b items) (n : Note) : IsBody (.array items n)

/-- The node is made from what a block holds, and nothing is said about it. -/
structure IsBlock (s : Schema) : Prop where
  body : IsBody blocks b s
  note : s.note = {}

end Parts

section Body

variable {blocks : List Block} {b : Block} {s : Schema}

theorem ItemsOf.nil : ItemsOf blocks b [] := ⟨List.Pairwise.nil, by simp, by simp⟩

theorem PropertiesOf.nil : PropertiesOf blocks b [] := ⟨List.nodup_nil, by simp, by simp⟩

theorem IsBody.withNote (h : IsBody blocks b s) (n : Note) : IsBody blocks b (s.withNote n) := by
  cases h with
  | object hkind hproperties m => exact .object hkind hproperties n
  | array hkind hne hitems m => exact .array hkind hne hitems n

theorem IsBody.fit (h : IsBody blocks b s) (hnote : s.note.Fits s.type) : s.Fit := by
  cases h with
  | object hkind hproperties m => exact ⟨Schema.propertiesFit_iff.mpr hproperties.fit, hnote⟩
  | array hkind hne hitems m => exact ⟨Schema.itemsFit_iff.mpr hitems.fit, hnote⟩

/-- Items of which no two are alike are a choice of options of which no two are equal. -/
theorem ItemsOf.isChoice {items : List Schema} (h : ItemsOf blocks b items) (hne : items ≠ []) :
    IsChoice (Schema.choice (Schema.itemNodes items)) (items.map Schema.toJson) := by
  rw [Schema.itemNodes_eq_map]
  refine ⟨List.pairwise_map.mpr (h.distinct.imp_of_mem fun {s t} hs ht hst => ?_), ?_⟩
  · rw [Schema.same_toJson s t (h.fit s hs) (h.fit t ht)]
    exact hst
  · rcases items with - | ⟨s, - | ⟨t, items⟩⟩
    · exact absurd rfl hne
    · exact .inl rfl
    · exact .inr ⟨by simp, rfl⟩

/-- A node made from the block at a site has its form there, once the note is right. -/
theorem IsBody.isNode (h : IsBody blocks b s) {site : Site} (hnote : site.Says s.type s.note)
    (hb : site.Holds blocks b) : IsNode blocks site (site.written s) := by
  cases h with
  | @object hkind properties hproperties n =>
    have hfields := Schema.propertyFields_eq_map properties
    refine .object site b (Schema.propertyFields properties) n hnote hb hkind ?_ ?_
    · rw [hfields, Table.keys_map fun p : String × Schema => p.2.toJson]
      exact hproperties.keys
    · rw [hfields]
      intro p hp
      obtain ⟨q, hq, rfl⟩ := List.mem_map.mp hp
      exact hproperties.nodes q hq
  | @array hkind items hne hitems n =>
    refine .array site b _ _ n hnote hb hkind (hitems.isChoice hne) ?_
    intro v hv
    obtain ⟨s, hs, rfl⟩ := List.mem_map.mp hv
    exact hitems.nodes s hs

end Body

/-! ### Resolving -/

theorem result_block?_eq_none_iff {blocks : List Block} {text : List Char} :
    (block? blocks text).result = .ok none ↔ isReference text = false := by
  refine ⟨fun h => ?_, result_block?_of_not_isReference⟩
  rcases hr : isReference text with - | -
  · rfl
  · rw [block?, if_pos hr] at h
    dsimp only at h
    split at h
    · split at h <;> cases h
    · cases h

section Resolve

variable {blocks : List Block} {inner : Block → Outcome Schema}
  (hinner : ∀ b s, (inner b).result = .ok s → IsBlock blocks b s)

include hinner

/-- The node of a tag is a plain type, or it is made from the block that the tag names. -/
theorem nodeOf_cases {tag : List Char} {s : Schema} (h : (nodeOf blocks inner tag).result = .ok s) :
    (∃ type, s = .plain type {}) ∨
      ∃ j b, blocks[j]? = some b ∧ placeholder j = tag ∧ IsBlock blocks b s := by
  obtain ⟨found, hfound, h⟩ := Traced.result_bind_eq_ok_iff.mp h
  rcases found with - | b
  · obtain ⟨type, -, h⟩ := Traced.result_bind_eq_ok_iff.mp h
    exact .inl ⟨type, (Except.ok.inj h).symm⟩
  · obtain ⟨j, hj, htag⟩ := result_block?_eq_some_iff.mp hfound
    exact .inr ⟨j, b, hj, htag, hinner b s h⟩

/-- The node that a site names has its form there, once it says whether it is required. -/
theorem withNote_isNode {site : Site} (hbare : site.isBare = false) {node : Schema}
    (hnode : (nodeOf blocks inner (valueTag site.value)).result = .ok node) {n : Note}
    (hfits : n.Fits node.type) (hrequired : n.required?.isSome = true) :
    (node.withNote n).Fit ∧ IsNode blocks site (site.written (node.withNote n)) := by
  have hsays : site.Says node.type n :=
    ⟨hfits, by rw [hrequired, hbare]; rfl, fun h => absurd (hbare.symm.trans h) Bool.false_ne_true⟩
  rcases nodeOf_cases hinner hnode with ⟨type, rfl⟩ | ⟨j, b, hj, htag, hb⟩
  · exact ⟨hfits, .plain site type n hsays hbare⟩
  · refine ⟨(hb.body.withNote n).fit ?_, (hb.body.withNote n).isNode ?_ ⟨j, hj, htag⟩⟩
    · rw [node.type_withNote, node.note_withNote]
      exact hfits
    · rw [node.type_withNote, node.note_withNote]
      exact hsays

/-- What a value resolves to has its form at every site that gives the value and is not bare. -/
theorem resolveValue_isNode (site : Site) (hbare : site.isBare = false) {s : Schema}
    (h : (resolveValue blocks inner site.value).result = .ok s) :
    s.Fit ∧ IsNode blocks site (site.written s) := by
  rw [resolveValue_eq] at h
  obtain ⟨node, hnode, h⟩ := Traced.result_bind_eq_ok_iff.mp h
  obtain ⟨e, he, h⟩ := Traced.result_bind_eq_ok_iff.mp h
  obtain rfl := Except.ok.inj h
  exact withNote_isNode hinner hbare hnode (fits_of_exampleOf he _) rfl

/-- What a text resolves to whose name may be left out has its form at the site of the text. -/
theorem resolveItem_isNode {text : List Char} (site : Site) (hbare : site.isBare = isReference text)
    (hvalue : site.value = itemValue text) {s : Schema}
    (h : (resolveItem blocks inner text).result = .ok s) :
    s.Fit ∧ IsNode blocks site (site.written s) := by
  obtain ⟨found, hfound, h⟩ := Traced.result_bind_eq_ok_iff.mp h
  rcases found with - | b
  · -- the text is a value, and the note comes with it
    refine resolveValue_isNode hinner site (hbare.trans (result_block?_eq_none_iff.mp hfound)) ?_
    rw [hvalue]
    exact h
  · -- a bare block: the node stays as the block gives it
    obtain ⟨j, hj, rfl⟩ := result_block?_eq_some_iff.mp hfound
    obtain ⟨hbody, hnote⟩ := hinner b s h
    have hfits : s.note.Fits s.type := by
      rw [hnote]
      intro e he
      cases he
    refine ⟨hbody.fit hfits, hbody.isNode ⟨hfits, ?_, fun _ => ?_⟩ ⟨j, hj, ?_⟩⟩
    · rw [hbare, isReference_placeholder, hnote]
      rfl
    · rw [hnote]
    · rw [hvalue, valueTag_itemValue_of_isReference (isReference_placeholder j)]

/-! ### Bodies -/

variable {b : Block}

/-- An item of the block is added to items of the block. -/
theorem ItemsOf.itemStep {text : List Char} (htext : text ∈ Text.pieces ',' b.body)
    {items items' : List Schema} (hitems : ItemsOf blocks b items)
    (h : (itemStep blocks inner b.body items text).result = .ok items') :
    ItemsOf blocks b items' := by
  rw [Shape.itemStep] at h
  split at h
  · cases h
  obtain ⟨item, hitem, h⟩ := Traced.result_bind_eq_ok_iff.mp h
  obtain rfl := Except.ok.inj h
  obtain ⟨hfit, hnode⟩ := resolveItem_isNode hinner (.item text) rfl rfl hitem
  have hwritten : Site.written (.item text) item = item.toJson :=
    congrArg Json.object (List.append_nil _)
  rw [hwritten] at hnode
  rw [addItem]
  split
  · -- one like it is there already
    exact hitems
  · rename_i hany
    have hnew : ∀ s ∈ items, s.alike item = false := by
      intro s hs
      rw [← Bool.not_eq_true]
      exact fun halike => hany (List.any_eq_true.mpr ⟨s, hs, halike⟩)
    refine ⟨List.pairwise_append.mpr ⟨hitems.distinct, List.pairwise_singleton _ _, ?_⟩,
      fun s hs => ?_, fun s hs => ?_⟩
    · intro s hs t ht
      rw [List.mem_singleton.mp ht]
      exact hnew s hs
    · rcases List.mem_append.mp hs with hs | hs
      · exact hitems.fit s hs
      · rw [List.mem_singleton.mp hs]
        exact hfit
    · rcases List.mem_append.mp hs with hs | hs
      · exact hitems.nodes s hs
      · rw [List.mem_singleton.mp hs]
        exact .item htext hnode

omit hinner in
/-- Once an item has been resolved, there is one. -/
theorem itemStep_ne_nil {body text : List Char} {items items' : List Schema}
    (h : (itemStep blocks inner body items text).result = .ok items') : items' ≠ [] := by
  rw [itemStep] at h
  split at h
  · cases h
  obtain ⟨item, -, h⟩ := Traced.result_bind_eq_ok_iff.mp h
  obtain rfl := Except.ok.inj h
  rw [addItem]
  split
  · rename_i hany
    rintro rfl
    cases hany
  · simp

/-- A property of the block is set among properties of the block. -/
theorem PropertiesOf.propertyStep {pair : List Char} (hpair : pair ∈ Text.pieces ',' b.body)
    {properties properties' : Table String Schema} (hproperties : PropertiesOf blocks b properties)
    (h : (propertyStep blocks inner properties pair).result = .ok properties') :
    PropertiesOf blocks b properties' := by
  rw [Shape.propertyStep] at h
  split at h
  · cases h
  split at h
  · cases h
  obtain ⟨value, hvalue, h⟩ := Traced.result_bind_eq_ok_iff.mp h
  obtain rfl := Except.ok.inj h
  obtain ⟨hfit, hnode⟩ :=
    resolveValue_isNode hinner (.property (Text.cut ':' pair).2) rfl hvalue
  have hwritten : Site.written (.property (Text.cut ':' pair).2) value = value.toJson :=
    congrArg Json.object (List.append_nil _)
  rw [hwritten] at hnode
  refine ⟨Table.nodup_keys_set hproperties.keys _ _, fun p hp => ?_, fun p hp => ?_⟩
  · rcases Table.mem_of_mem_set hp with rfl | hp
    · exact hfit
    · exact hproperties.fit p hp
  · rcases Table.mem_of_mem_set hp with rfl | hp
    · exact .pair hpair hnode
    · exact hproperties.nodes p hp

/-- What the pieces of an array resolve to. -/
theorem resolveItems_itemsOf {items : List Schema}
    (h : (resolveItems blocks inner b.body [] (Text.pieces ',' b.body)).result = .ok items) :
    items ≠ [] ∧ ItemsOf blocks b items := by
  rw [resolveItems_eq_foldlM] at h
  refine ⟨?_, ?_⟩
  · -- there is always a first piece, and what it resolves to stays
    rcases hpieces : Text.pieces ',' b.body with - | ⟨first, rest⟩
    · exact absurd hpieces (Text.pieces_ne_nil _ _)
    · rw [hpieces, List.foldlM_cons] at h
      obtain ⟨items₁, hfirst, h⟩ := Traced.result_bind_eq_ok_iff.mp h
      exact Traced.preserves_foldlM (P := fun items => items ≠ [])
        (fun text _ items items' _ hstep => itemStep_ne_nil hstep) (itemStep_ne_nil hfirst) h
  · exact Traced.preserves_foldlM (P := ItemsOf blocks b)
      (fun text htext items items' hitems hstep => hitems.itemStep hinner htext hstep)
      .nil h

/-- What the pairs of an object resolve to. -/
theorem resolveProperties_propertiesOf {properties : Table String Schema}
    (h : (resolveProperties blocks inner [] (Text.pieces ',' b.body)).result = .ok properties) :
    PropertiesOf blocks b properties := by
  rw [resolveProperties_eq_foldlM] at h
  exact Traced.preserves_foldlM (P := PropertiesOf blocks b)
    (fun pair hpair ps ps' hps hstep => hps.propertyStep hinner hpair hstep) .nil h

theorem resolveBody_isBlock {s : Schema} (h : (resolveBody blocks inner b).result = .ok s) :
    IsBlock blocks b s := by
  rw [resolveBody] at h
  rcases hkind : b.kind with - | -
  · rw [hkind] at h
    dsimp only at h
    split at h
    · obtain rfl := Except.ok.inj h
      exact ⟨.object hkind .nil {}, rfl⟩
    · obtain ⟨properties, hproperties, h⟩ := Traced.result_bind_eq_ok_iff.mp h
      obtain rfl := Except.ok.inj h
      exact ⟨.object hkind (resolveProperties_propertiesOf hinner hproperties) {}, rfl⟩
  · rw [hkind] at h
    obtain ⟨items, hitems, h⟩ := Traced.result_bind_eq_ok_iff.mp h
    obtain rfl := Except.ok.inj h
    obtain ⟨hne, hitems⟩ := resolveItems_itemsOf hinner hitems
    exact ⟨.array hkind hne hitems {}, rfl⟩

end Resolve

/-- What a block resolves to is made from what it holds, however deep the blocks in it are. -/
theorem resolveBlock_isBlock {blocks : List Block} (depth : Nat) (b : Block) (s : Schema)
    (h : (resolveBlock blocks depth b).result = .ok s) : IsBlock blocks b s := by
  induction depth generalizing b s with
  | zero => cases h
  | succ depth ih => exact resolveBody_isBlock ih h

/-! ### Outlines -/

/-- What a text compiles to is what its root resolves to, once it has been flattened. -/
theorem resolveItem_of_compile {text : String} {s : Schema} (h : (compile text).result = .ok s) :
    let flat := Flat.ofText (Text.squeeze text.toList)
    (resolveItem flat.blocks (resolveBlock flat.blocks flat.blocks.length) flat.root).result
      = .ok s := by
  rw [result_compile, compileSource, resolveFlat] at h
  split at h
  · rename_i s' hs
    obtain rfl := Except.ok.inj h
    split at hs
    · exact hs
    · cases hs
  · cases h
  · cases h

/-- Every example in a compiled tree fits its type. -/
theorem fit_of_compile {text : String} {s : Schema} (h : (compile text).result = .ok s) : s.Fit :=
  (resolveItem_isNode (resolveBlock_isBlock _) (.root _) rfl rfl
    (resolveItem_of_compile h)).1

/-- **The form of compiled nodes.**  Whatever the text, if it compiles then the tree that is
written for it is a node at the root of its flattened outline. -/
theorem compile_isNode {text : String} {s : Schema} (h : (compile text).result = .ok s) :
    let flat := Flat.ofText (Text.squeeze text.toList)
    IsNode flat.blocks (.root flat.root) s.rootJson :=
  (resolveItem_isNode (resolveBlock_isBlock _) (.root _) rfl rfl
    (resolveItem_of_compile h)).2

/-- An array that names its own first item again, marked and with an example, and holds a copy of
it. -/
theorem isNode_of_own_placeholder :
    let text := "[{a: b:1}, x: ?$0:no, {a: b:1}, s]"
    let s := Schema.array
      [.object [("a", .plain .boolean ⟨some (.boolean true), some true⟩)] {},
        .object [("a", .plain .boolean ⟨some (.boolean true), some true⟩)]
          ⟨some (.text "no"), some false⟩,
        .plain .string ⟨none, some true⟩] {}
    (compile text).result = .ok s ∧
      IsNode [⟨.object, "a:b:1".toList⟩, ⟨.object, "a:b:1".toList⟩,
        ⟨.array, "$0,x:?$0:no,$1,s".toList⟩] (.root "$2".toList) s.rootJson := by
  intro text s
  have hs : (compile text).result = .ok s := by cbv
  have hflat : Flat.ofText (Text.squeeze text.toList) =
      ⟨"$2".toList, [⟨.object, "a:b:1".toList⟩, ⟨.object, "a:b:1".toList⟩,
        ⟨.array, "$0,x:?$0:no,$1,s".toList⟩]⟩ := by cbv
  have hnode := compile_isNode hs
  rw [hflat] at hnode
  exact ⟨hs, hnode⟩

end ApiOutline.Shape
