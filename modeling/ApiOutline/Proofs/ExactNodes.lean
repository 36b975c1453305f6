/-
ApiOutline/Proofs/ExactNodes.lean

What resolving keeps, and that what it gives is exact.

Design.  Resolving makes nodes in four ways only: a plain type, a note on a node, an object made
from properties under different names, and an array.  A property of nodes that these four keep
(`Kept`) holds of whatever a text resolves to, with any table of blocks and at any depth.

Exactness is such a property: examples are read from literals, and those give canonical numbers;
names stand once, because a table takes each name once.  So what is written for two nodes that were
resolved is equal exactly if it means the same (`Resolved.same_iff`), and being alike is an
equivalence of such nodes.

Main results: `Kept.resolveItem`, `Resolved.same_iff`.
-/
import ApiOutline.Proofs.NodeForm
import ApiOutline.Proofs.ValueEquality

namespace ApiOutline

namespace Shape

/-! ### What resolving keeps -/

/-- The ways of making nodes keep a property. -/
structure Kept (P : Schema → Prop) : Prop where
  plain : ∀ type, P (.plain type {})
  note : ∀ s, P s → ∀ default e, (exampleOf s.type default).result = .ok e →
    ∀ r, P (s.withNote ⟨e, some r⟩)
  object : ∀ properties : Table String Schema, properties.keys.Nodup →
    (∀ p ∈ properties, P p.2) → P (.object properties {})
  array : ∀ items : List Schema, (∀ s ∈ items, P s) → P (.array items {})

namespace Kept

variable {P : Schema → Prop} (hP : Kept P) {blocks : List Block}

section Inner

variable {inner : Block → Outcome Schema} (hinner : ∀ b s, (inner b).result = .ok s → P s)

include hP hinner

theorem nodeOf {tag : List Char} {s : Schema} (h : (nodeOf blocks inner tag).result = .ok s) :
    P s := by
  obtain ⟨found, -, h⟩ := Traced.result_bind_eq_ok_iff.mp h
  rcases found with - | b
  · obtain ⟨type, -, h⟩ := Traced.result_bind_eq_ok_iff.mp h
    obtain rfl := Except.ok.inj h
    exact hP.plain type
  · exact hinner b s h

theorem resolveValue {text : List Char} {s : Schema}
    (h : (resolveValue blocks inner text).result = .ok s) : P s := by
  rw [resolveValue_eq] at h
  obtain ⟨node, hnode, h⟩ := Traced.result_bind_eq_ok_iff.mp h
  obtain ⟨e, he, h⟩ := Traced.result_bind_eq_ok_iff.mp h
  obtain rfl := Except.ok.inj h
  exact hP.note node (hP.nodeOf hinner hnode) _ e he _

theorem resolveItemIn {text : List Char} {s : Schema}
    (h : (Shape.resolveItem blocks inner text).result = .ok s) : P s := by
  obtain ⟨found, -, h⟩ := Traced.result_bind_eq_ok_iff.mp h
  rcases found with - | b
  · exact hP.resolveValue hinner h
  · exact hinner b s h

theorem itemStep {body text : List Char} {items items' : List Schema}
    (hitems : ∀ s ∈ items, P s)
    (h : (itemStep blocks inner body items text).result = .ok items') : ∀ s ∈ items', P s := by
  rw [Shape.itemStep] at h
  split at h
  · cases h
  obtain ⟨item, hitem, h⟩ := Traced.result_bind_eq_ok_iff.mp h
  obtain rfl := Except.ok.inj h
  rw [addItem]
  split
  · exact hitems
  · intro s hs
    rcases List.mem_append.mp hs with hs | hs
    · exact hitems s hs
    · rw [List.mem_singleton.mp hs]
      exact hP.resolveItemIn hinner hitem

theorem propertyStep {pair : List Char} {properties properties' : Table String Schema}
    (hproperties : properties.keys.Nodup ∧ ∀ p ∈ properties, P p.2)
    (h : (propertyStep blocks inner properties pair).result = .ok properties') :
    properties'.keys.Nodup ∧ ∀ p ∈ properties', P p.2 := by
  rw [Shape.propertyStep] at h
  split at h
  · cases h
  split at h
  · cases h
  obtain ⟨value, hvalue, h⟩ := Traced.result_bind_eq_ok_iff.mp h
  obtain rfl := Except.ok.inj h
  refine ⟨Table.nodup_keys_set hproperties.1 _ _, fun p hp => ?_⟩
  rcases Table.mem_of_mem_set hp with rfl | hp
  · exact hP.resolveValue hinner hvalue
  · exact hproperties.2 p hp

theorem resolveBody {b : Block} {s : Schema}
    (h : (resolveBody blocks inner b).result = .ok s) : P s := by
  rw [Shape.resolveBody] at h
  rcases hkind : b.kind with - | -
  · rw [hkind] at h
    dsimp only at h
    split at h
    · obtain rfl := Except.ok.inj h
      exact hP.object [] List.nodup_nil (by simp)
    · obtain ⟨properties, hproperties, h⟩ := Traced.result_bind_eq_ok_iff.mp h
      obtain rfl := Except.ok.inj h
      rw [resolveProperties_eq_foldlM] at hproperties
      -- the loop keeps the names apart and every node as it should be
      have hnone : (Table.keys ([] : Table String Schema)).Nodup ∧
          ∀ p ∈ ([] : Table String Schema), P p.2 := ⟨List.nodup_nil, by simp⟩
      have hkept := Traced.preserves_foldlM
        (P := fun properties : Table String Schema =>
          properties.keys.Nodup ∧ ∀ p ∈ properties, P p.2)
        (fun pair _ ps ps' hps hstep => hP.propertyStep hinner hps hstep) hnone hproperties
      exact hP.object properties hkept.1 hkept.2
  · rw [hkind] at h
    obtain ⟨items, hitems, h⟩ := Traced.result_bind_eq_ok_iff.mp h
    obtain rfl := Except.ok.inj h
    rw [resolveItems_eq_foldlM] at hitems
    exact hP.array items (Traced.preserves_foldlM (P := fun items => ∀ s ∈ items, P s)
      (fun text _ items items' hkept hstep => hP.itemStep hinner hkept hstep) (by simp) hitems)

end Inner

include hP

theorem resolveBlock (depth : Nat) (b : Block) (s : Schema)
    (h : (resolveBlock blocks depth b).result = .ok s) : P s := by
  induction depth generalizing b s with
  | zero => cases h
  | succ depth ih => exact hP.resolveBody ih h

/-- What resolving keeps is true of the nodes that texts resolve to. -/
theorem resolveItem {depth : Nat} {text : List Char} {s : Schema}
    (h : (Shape.resolveItem blocks (Shape.resolveBlock blocks depth) text).result = .ok s) : P s :=
  hP.resolveItemIn (hP.resolveBlock depth) h

end Kept

/-! ### Exact nodes -/

/-- What a literal is read as is exact. -/
theorem exact_of_read {type : TypeName} {literal : List Char} {v : Scalar}
    (h : Default.read type literal = .ok v) : (Json.ofScalar v).Exact := by
  cases type with
  | integer =>
    rw [Default.read, Default.readInteger] at h
    split at h
    · obtain rfl := Except.ok.inj h
      trivial
    · split at h
      · cases h
      · split at h
        · obtain rfl := Except.ok.inj h
          trivial
        · cases h
  | number =>
    rw [Default.read, Default.readNumber] at h
    split at h
    · obtain rfl := Except.ok.inj h
      trivial
    · split at h
      · cases h
      · rename_i x hread
        split at h
        · rename_i hfinite
          obtain rfl := Except.ok.inj h
          exact Literal.isCanonical_readBinary64? hread hfinite
        · cases h
  | boolean =>
    obtain rfl := Except.ok.inj h
    trivial
  | string | object | array =>
    obtain rfl := Except.ok.inj h
    trivial

theorem exact_of_exampleOf {type : TypeName} {default : List Char} {e : Option Scalar}
    (h : (exampleOf type default).result = .ok e) : ∀ v ∈ e, (Json.ofScalar v).Exact := by
  rintro v rfl
  rw [exampleOf] at h
  split at h
  · cases h
  · split at h
    · cases h
    · rcases hread : Default.read type default with f | w
      · rw [hread] at h
        cases h
      · rw [hread] at h
        obtain rfl := Option.some.inj (Except.ok.inj h)
        exact exact_of_read hread

end Shape

namespace Schema

theorem nodup_keys_head (s : Schema) : (Table.keys s.head).Nodup := by
  cases s <;> simp [head]

theorem nodup_keys_note (n : Note) : (Table.keys n.fields).Nodup := by
  obtain ⟨e, r⟩ := n
  cases e <;> cases r <;> simp [Note.fields, Json.field?]

/-- What is written for a node is exact if its parts are. -/
theorem exact_toJson_iff {s : Schema} :
    s.toJson.Exact ↔
      Json.fieldsExact s.head ∧ ∀ v ∈ s.note.example?, (Json.ofScalar v).Exact := by
  have hkeys : (Table.keys s.fields).Nodup := by
    rw [fields_eq, Table.keys, List.map_append]
    refine List.nodup_append.mpr ⟨nodup_keys_head s, nodup_keys_note s.note, ?_⟩
    rintro key hhead key' hnote rfl
    exact not_mem_keys_head hnote hhead
  have hnote : (∀ f ∈ s.note.fields, f.2.Exact) ↔
      ∀ v ∈ s.note.example?, (Json.ofScalar v).Exact := by
    obtain ⟨e, r⟩ := s.note
    cases e <;> cases r <;> simp [Note.fields, Json.field?, Json.Exact]
  rw [toJson, Json.Exact, and_iff_right hkeys, fields_eq, Json.fieldsExact_iff,
    Json.fieldsExact_iff, List.forall_mem_append, hnote]

theorem exact_withNote {s : Schema} (hs : s.toJson.Exact) {n : Note}
    (hn : ∀ v ∈ n.example?, (Json.ofScalar v).Exact) : (s.withNote n).toJson.Exact := by
  have hhead : (s.withNote n).head = s.head := by cases s <;> rfl
  rw [exact_toJson_iff, hhead, note_withNote]
  exact ⟨(exact_toJson_iff.mp hs).1, hn⟩

theorem exact_object {properties : Table String Schema} (hkeys : properties.keys.Nodup)
    (h : ∀ p ∈ properties, p.2.toJson.Exact) : (object properties {}).toJson.Exact := by
  rw [exact_toJson_iff]
  refine ⟨⟨trivial, ⟨?_, ?_⟩, trivial⟩, by simp [note]⟩
  · rw [propertyFields_eq_map, Table.keys_map fun p : String × Schema => p.2.toJson]
    exact hkeys
  · rw [propertyFields_eq_map, Json.fieldsExact_iff]
    intro f hf
    obtain ⟨p, hp, rfl⟩ := List.mem_map.mp hf
    exact h p hp

theorem exact_array {items : List Schema} (h : ∀ s ∈ items, s.toJson.Exact) :
    (array items {}).toJson.Exact := by
  have hitems : ∀ v ∈ itemNodes items, v.Exact := by
    rw [itemNodes_eq_map]
    intro v hv
    obtain ⟨s, hs, rfl⟩ := List.mem_map.mp hv
    exact h s hs
  have hchoice : (choice (itemNodes items)).Exact := by
    have hseveral : (Json.object [("oneOf", .array (itemNodes items))]).Exact :=
      ⟨List.nodup_singleton _, Json.itemsExact_iff.mpr hitems, trivial⟩
    generalize itemNodes items = vs at hitems hseveral ⊢
    rcases vs with - | ⟨v, - | ⟨w, vs⟩⟩
    · exact hseveral
    · exact hitems v (List.mem_singleton_self v)
    · exact hseveral
  rw [exact_toJson_iff]
  exact ⟨⟨trivial, hchoice, trivial⟩, by simp [note]⟩

end Schema

namespace Shape

/-- Resolving keeps nodes exact. -/
theorem kept_exact : Kept fun s => s.toJson.Exact where
  plain type := Schema.exact_toJson_iff.mpr ⟨⟨trivial, trivial⟩, by simp [Schema.note]⟩
  note s hs default e he r := Schema.exact_withNote hs (exact_of_exampleOf he)
  object properties hkeys h := Schema.exact_object hkeys h
  array items h := Schema.exact_array h

/-- What a text resolves to as an item, below a table of blocks. -/
def itemNode (blocks : List Block) (depth : Nat) (text : List Char) : Except Stop Schema :=
  (resolveItem blocks (resolveBlock blocks depth) text).result

/-- Some text resolves to the node, below some table of blocks. -/
def Resolved (s : Schema) : Prop := ∃ blocks depth text, itemNode blocks depth text = .ok s

namespace Resolved

variable {s t : Schema}

theorem fit (h : Resolved s) : s.Fit := by
  obtain ⟨blocks, depth, text, h⟩ := h
  exact (resolveItem_isNode (resolveBlock_isBlock depth) (.item text) rfl rfl h).1

theorem exact (h : Resolved s) : s.toJson.Exact := by
  obtain ⟨blocks, depth, text, h⟩ := h
  exact kept_exact.resolveItem h

/-- **Equality of nodes.**  What is written for nodes that texts resolve to is equal exactly if it
means the same. -/
theorem same_iff (hs : Resolved s) (ht : Resolved t) :
    s.toJson.same t.toJson = true ↔ s.toJson.meaning = t.toJson.meaning :=
  Json.same_iff_meaning s.toJson t.toJson hs.exact ht.exact

/-- Such nodes are alike exactly if what is written for them is equal. -/
theorem alike_eq (hs : Resolved s) (ht : Resolved t) : s.alike t = s.toJson.same t.toJson :=
  (Schema.same_toJson s t hs.fit ht.fit).symm

end Resolved

end Shape

end ApiOutline
