/-
ApiOutline/Proofs/NodeEquality.lean

Equality of nodes, and of what is written for them.

Design.  Written values have an equality of their own (`Json.same`): numbers are compared by
value, and the order of fields does not count.  It knows nothing of types and notes, and it
takes the booleans for 0 and 1.  Nodes are compared as trees (`Schema.alike`), part by part.
The two agree on nodes whose examples fit their types: then a boolean only ever meets a
boolean.

Main result: `Schema.same_toJson`.
-/
import ApiOutline.Shape.Schema

namespace ApiOutline

/-- A type is known by its full name. -/
theorem TypeName.name_injective {t u : TypeName} (h : t.name = u.name) : t = u := by
  revert h
  cases t <;> cases u <;> decide

/-! ### Equality of written values -/

namespace Json

/-- The number that a value counts as; a boolean counts as 0 or 1. -/
def number? : Json → Option Scalar
  | boolean b => some (.integer (if b then 1 else 0))
  | integer n => some (.integer n)
  | float x => some (.float x)
  | _ => none

/-- Both values are numbers, of the same value. -/
def sameNumber (j k : Json) : Bool :=
  match j.number?, k.number? with
  | some m, some n => m.alike n
  | _, _ => false

mutual

/-- The values are equal: numbers by value, arrays item by item, objects field by field in any
order. -/
def same : Json → Json → Bool
  | null, null => true
  | text s, text t => s = t
  | array xs, array ys => itemsSame xs ys
  | object fs, object gs => fs.length = gs.length && fieldsSame fs gs
  | j, k => j.sameNumber k

/-- The arrays are equal item by item. -/
def itemsSame : List Json → List Json → Bool
  | [], [] => true
  | v :: vs, w :: ws => v.same w && itemsSame vs ws
  | _, _ => false

/-- Every field on the left has one of the same value on the right. -/
def fieldsSame : List (String × Json) → List (String × Json) → Bool
  | [], _ => true
  | (k, v) :: fs, gs =>
    (match Table.get? gs k with
     | some w => v.same w
     | none => false) && fieldsSame fs gs

end

end Json

/-! ### Examples that fit their types -/

/-- The value is a default that a node of the type can have: a whole number, a finite number, a
boolean, or a text that is not empty. -/
inductive Scalar.Fits : TypeName → Scalar → Prop
  | integer (n : Int) : Fits .integer (.integer n)
  | whole (n : Int) : Fits .number (.integer n)
  | number {x : Binary64} (h : x.isFinite = true) : Fits .number (.float x)
  | boolean (b : Bool) : Fits .boolean (.boolean b)
  | string {s : String} (h : s ≠ "") : Fits .string (.text s)
  | object {s : String} (h : s ≠ "") : Fits .object (.text s)
  | array {s : String} (h : s ≠ "") : Fits .array (.text s)

/-- The example of a note fits a type. -/
def Note.Fits (type : TypeName) (n : Note) : Prop := ∀ e ∈ n.example?, Scalar.Fits type e

namespace Schema

mutual

/-- Every example in the tree fits the type of its node. -/
def Fit : Schema → Prop
  | plain t n => n.Fits t
  | object ps n => propertiesFit ps ∧ n.Fits .object
  | array items n => itemsFit items ∧ n.Fits .array

/-- The same for every property. -/
def propertiesFit : List (String × Schema) → Prop
  | [] => True
  | (_, s) :: ps => s.Fit ∧ propertiesFit ps

/-- The same for every item. -/
def itemsFit : List Schema → Prop
  | [] => True
  | s :: ss => s.Fit ∧ itemsFit ss

end

theorem propertiesFit_iff {ps : List (String × Schema)} :
    propertiesFit ps ↔ ∀ p ∈ ps, p.2.Fit := by
  induction ps with
  | nil => simp [propertiesFit]
  | cons p ps ih => simp [propertiesFit, ih]

theorem itemsFit_iff {items : List Schema} : itemsFit items ↔ ∀ s ∈ items, s.Fit := by
  induction items with
  | nil => simp [itemsFit]
  | cons s items ih => simp [itemsFit, ih]

end Schema

/-! ### Fields -/

namespace Json

theorem same_boolean (b c : Bool) : (boolean b).same (boolean c) = decide (b = c) := by
  cases b <;> cases c <;> rfl

theorem fieldsSame_append (fs fs' gs : List (String × Json)) :
    fieldsSame (fs ++ fs') gs = (fieldsSame fs gs && fieldsSame fs' gs) := by
  induction fs with
  | nil => rfl
  | cons f fs ih =>
    obtain ⟨k, v⟩ := f
    rw [List.cons_append, fieldsSame, fieldsSame, ih, Bool.and_assoc]

/-- Only the fields of the names on the left are looked at. -/
theorem fieldsSame_congr {fs gs gs' : List (String × Json)}
    (h : ∀ f ∈ fs, Table.get? gs f.1 = Table.get? gs' f.1) :
    fieldsSame fs gs = fieldsSame fs gs' := by
  induction fs with
  | nil => rfl
  | cons f fs ih =>
    obtain ⟨k, v⟩ := f
    have hk : Table.get? gs k = Table.get? gs' k := h _ List.mem_cons_self
    rw [fieldsSame, fieldsSame, hk, ih fun g hg => h g (List.mem_cons_of_mem _ hg)]

end Json

/-- Values of one type are equal when they are equal as they are written. -/
theorem Scalar.same_ofScalar {type : TypeName} {a b : Scalar} (ha : Fits type a)
    (hb : Fits type b) : (Json.ofScalar a).same (Json.ofScalar b) = a.alike b := by
  cases ha <;> cases hb <;> first | rfl | exact Json.same_boolean _ _

namespace Note

/-- Notes on nodes of one type are equal when their fields are. -/
theorem same_fields {type : TypeName} {m n : Note} (hm : m.Fits type) (hn : n.Fits type) :
    (decide (m.fields.length = n.fields.length) && Json.fieldsSame m.fields n.fields) =
      m.alike n := by
  obtain ⟨e, r⟩ := m
  obtain ⟨e', r'⟩ := n
  have hexamples : ∀ a b, e = some a → e' = some b →
      (Json.ofScalar a).same (Json.ofScalar b) = a.alike b := by
    rintro a b rfl rfl
    exact Scalar.same_ofScalar (hm a rfl) (hn b rfl)
  cases e <;> cases e' <;> cases r <;> cases r' <;>
    simp_all [fields, Json.field?, alike, Json.fieldsSame, Table.get?, Json.same_boolean]

/-- A note with more fields than another has one that the other has not. -/
theorem length_le_of_fieldsSame {m n : Note} (h : Json.fieldsSame m.fields n.fields = true) :
    m.fields.length ≤ n.fields.length := by
  obtain ⟨e, r⟩ := m
  obtain ⟨e', r'⟩ := n
  cases e <;> cases e' <;> cases r <;> cases r' <;>
    simp_all [fields, Json.field?, Json.fieldsSame, Table.get?]

theorem mem_keys_fields {n : Note} {key : String} (h : key ∈ Table.keys n.fields) :
    key = "example" ∨ key = "required" := by
  obtain ⟨e, r⟩ := n
  cases e <;> cases r <;> simp_all [fields, Json.field?]

end Note

/-! ### Nodes -/

namespace Schema

theorem length_propertyFields (ps : List (String × Schema)) :
    (propertyFields ps).length = ps.length := by
  rw [propertyFields_eq_map, List.length_map]

theorem get?_propertyFields (ps : List (String × Schema)) (name : String) :
    Table.get? (propertyFields ps) name = (Table.get? ps name).map toJson := by
  rw [propertyFields_eq_map, Table.get?_map]

/-- The fields of a node before its note: its type, and what it is made of. -/
def head : Schema → List (String × Json)
  | plain t _ => [("type", .text t.name)]
  | object ps _ => [("type", .text "object"), ("properties", .object (propertyFields ps))]
  | array items _ => [("type", .text "array"), ("items", choice (itemNodes items))]

theorem fields_eq (s : Schema) : s.fields = s.head ++ s.note.fields := by
  cases s <;> rfl

theorem mem_keys_head {s : Schema} {key : String} (h : key ∈ Table.keys s.head) :
    key = "type" ∨ key = "properties" ∨ key = "items" := by
  cases s <;> simp_all [head] <;> grind

/-- The names of a head are not those of a note. -/
theorem not_mem_keys_head {s : Schema} {n : Note} {key : String} (h : key ∈ Table.keys n.fields) :
    key ∉ Table.keys s.head := by
  intro hkey
  rcases Note.mem_keys_fields h with rfl | rfl
  · exact absurd (mem_keys_head hkey) (by decide)
  · exact absurd (mem_keys_head hkey) (by decide)

/-- The fields of two nodes are equal when those of their heads and of their notes are. -/
theorem fieldsSame_fields (s t : Schema) :
    Json.fieldsSame s.fields t.fields =
      (Json.fieldsSame s.head t.head && Json.fieldsSame s.note.fields t.note.fields) := by
  have hhead : Json.fieldsSame s.head (t.head ++ t.note.fields) =
      Json.fieldsSame s.head t.head := by
    refine Json.fieldsSame_congr fun f hf => Table.get?_append_left _ fun hnote => ?_
    exact not_mem_keys_head hnote (List.mem_map_of_mem hf)
  have hnote : Json.fieldsSame s.note.fields (t.head ++ t.note.fields) =
      Json.fieldsSame s.note.fields t.note.fields := by
    refine Json.fieldsSame_congr fun f hf => Table.get?_append_right ?_ _
    exact not_mem_keys_head (List.mem_map_of_mem hf)
  rw [fields_eq s, fields_eq t, Json.fieldsSame_append, hhead, hnote]

/-- What is written for two nodes is equal when their heads and their notes are. -/
theorem same_toJson_of_head {s t : Schema} {type : TypeName} (hs : s.note.Fits type)
    (ht : t.note.Fits type) (hlength : s.head.length = t.head.length) :
    s.toJson.same t.toJson = (Json.fieldsSame s.head t.head && s.note.alike t.note) := by
  have hdecide : decide (s.fields.length = t.fields.length) =
      decide (s.note.fields.length = t.note.fields.length) := by
    rw [fields_eq s, fields_eq t, List.length_append, List.length_append, hlength]
    simp
  show (decide (s.fields.length = t.fields.length) && Json.fieldsSame s.fields t.fields) = _
  rw [fieldsSame_fields, hdecide, ← Note.same_fields hs ht, Bool.and_left_comm]

/-- A plain node is equal to none that is made of something. -/
theorem same_plain_eq_false {type : TypeName} {m : Note} {t : Schema} (ht : 2 ≤ t.head.length) :
    (plain type m).toJson.same t.toJson = false := by
  rw [← Bool.not_eq_true]
  intro h
  have hsame : (decide ((plain type m).fields.length = t.fields.length) &&
      Json.fieldsSame (plain type m).fields t.fields) = true := h
  rw [fieldsSame_fields, Bool.and_eq_true, Bool.and_eq_true, decide_eq_true_eq] at hsame
  -- the other node has a longer head, so it must have the shorter note
  obtain ⟨hlength, -, hnote⟩ := hsame
  have hle : m.fields.length ≤ t.note.fields.length := Note.length_le_of_fieldsSame hnote
  rw [fields_eq t, List.length_append] at hlength
  have hplain : (plain type m).fields.length = 1 + m.fields.length := Nat.add_comm _ _
  omega

/-- A node with a field in its head that another has not in its own is not equal to it. -/
theorem same_eq_false_of_head {s t : Schema} (h : Json.fieldsSame s.head t.head = false) :
    s.toJson.same t.toJson = false := by
  show (decide (s.fields.length = t.fields.length) && Json.fieldsSame s.fields t.fields) = _
  rw [fieldsSame_fields, h, Bool.false_and, Bool.and_false]

/-- Nodes of different types are not equal. -/
theorem same_eq_false_of_type {s t : Schema} (h : s.type ≠ t.type) :
    s.toJson.same t.toJson = false := by
  have hhead : ∀ s : Schema, ∃ rest, s.head = ("type", .text s.type.name) :: rest := by
    rintro (- | - | -) <;> exact ⟨_, rfl⟩
  obtain ⟨rest, hs⟩ := hhead s
  obtain ⟨rest', ht⟩ := hhead t
  have hname : s.type.name ≠ t.type.name := fun hname => h (TypeName.name_injective hname)
  apply same_eq_false_of_head
  simp [hs, ht, Json.fieldsSame, Table.get?, Json.same, hname]

theorem get?_fields_oneOf (s : Schema) : Table.get? s.fields "oneOf" = none := by
  rw [Table.get?_eq_none_iff, fields_eq, Table.keys, List.map_append, List.mem_append]
  rintro (hhead | hnote)
  · exact absurd (mem_keys_head hhead) (by decide)
  · exact absurd (Note.mem_keys_fields hnote) (by decide)

/-- A choice of items is equal to another when the items are. -/
theorem same_choice (xs ys : List Schema) :
    (choice (itemNodes xs)).same (choice (itemNodes ys)) =
      Json.itemsSame (itemNodes xs) (itemNodes ys) := by
  have hboth : ∀ vs ws, (Json.object [("oneOf", .array vs)]).same (.object [("oneOf", .array ws)]) =
      Json.itemsSame vs ws := by
    intro vs ws
    simp [Json.same, Json.fieldsSame, Table.get?]
  -- one node is no choice of several
  have hleft : ∀ (s : Schema) (v : Json), s.toJson.same (.object [("oneOf", v)]) = false := by
    intro s v
    cases s <;> simp [toJson, fields, Json.same, Json.fieldsSame, Table.get?]
  have hright : ∀ (s : Schema) (v : Json), (Json.object [("oneOf", v)]).same s.toJson = false := by
    intro s v
    simp [toJson, Json.same, Json.fieldsSame, get?_fields_oneOf]
  rcases xs with - | ⟨x, - | ⟨x', xs⟩⟩ <;> rcases ys with - | ⟨y, - | ⟨y', ys⟩⟩
  · rfl
  · exact hright y _
  · exact hboth _ _
  · exact hleft x _
  · show x.toJson.same y.toJson = (x.toJson.same y.toJson && true)
    rw [Bool.and_true]
  · show x.toJson.same _ = (x.toJson.same y.toJson && false)
    rw [Bool.and_false]
    exact hleft x _
  · exact hboth _ _
  · show Json.same _ y.toJson = (x.toJson.same y.toJson && false)
    rw [Bool.and_false]
    exact hright y _
  · exact hboth _ _

mutual

/-- **Equality of nodes.**  Nodes whose examples fit their types are alike exactly if what is
written for them is equal. -/
theorem same_toJson : (s t : Schema) → s.Fit → t.Fit → s.toJson.same t.toJson = s.alike t
  | .plain a m, .plain b n, hs, ht => by
    by_cases h : a = b
    · subst h
      rw [same_toJson_of_head (s := .plain a m) (t := .plain a n) hs ht rfl]
      simp [head, alike, note, Json.fieldsSame, Json.same, Table.get?]
    · rw [same_eq_false_of_type (s := .plain a m) (t := .plain b n) h, alike, decide_eq_false h,
        Bool.false_and]
  | .object ps m, .object qs n, hs, ht => by
    rw [same_toJson_of_head (s := .object ps m) (t := .object qs n) hs.2 ht.2 rfl]
    simp [head, alike, note, Json.fieldsSame, Json.same, Table.get?, length_propertyFields,
      fieldsSame_propertyFields ps qs hs.1 ht.1]
  | .array xs m, .array ys n, hs, ht => by
    rw [same_toJson_of_head (s := .array xs m) (t := .array ys n) hs.2 ht.2 rfl]
    simp [head, alike, note, Json.fieldsSame, Json.same, Table.get?, same_choice,
      itemsSame_itemNodes xs ys hs.1 ht.1]
  | .plain .., .object .., hs, ht => same_plain_eq_false (Nat.le_refl 2)
  | .plain .., .array .., hs, ht => same_plain_eq_false (Nat.le_refl 2)
  | .object .., .plain .., hs, ht =>
    same_eq_false_of_head (by simp [head, Json.fieldsSame, Table.get?])
  | .object .., .array .., hs, ht => same_eq_false_of_type (by simp [type])
  | .array .., .plain .., hs, ht =>
    same_eq_false_of_head (by simp [head, Json.fieldsSame, Table.get?])
  | .array .., .object .., hs, ht => same_eq_false_of_type (by simp [type])

/-- The same for properties that are found among others. -/
theorem fieldsSame_propertyFields : (ps qs : List (String × Schema)) → propertiesFit ps →
    propertiesFit qs → Json.fieldsSame (propertyFields ps) (propertyFields qs) = found ps qs
  | [], qs, hps, hqs => rfl
  | (k, s) :: ps, qs, hps, hqs => by
    rw [propertyFields, Json.fieldsSame, found, get?_propertyFields,
      fieldsSame_propertyFields ps qs hps.2 hqs]
    rcases hget : Table.get? qs k with - | t
    · rfl
    · have ht : t.Fit := propertiesFit_iff.mp hqs _ (Table.mem_of_get?_eq_some hget)
      rw [Option.map_some]
      show (s.toJson.same t.toJson && _) = _
      rw [same_toJson s t hps.1 ht]

/-- The same for items, one by one. -/
theorem itemsSame_itemNodes : (xs ys : List Schema) → itemsFit xs → itemsFit ys →
    Json.itemsSame (itemNodes xs) (itemNodes ys) = itemsAlike xs ys
  | [], [], hxs, hys => rfl
  | [], y :: ys, hxs, hys => rfl
  | x :: xs, [], hxs, hys => rfl
  | x :: xs, y :: ys, hxs, hys => by
    show (x.toJson.same y.toJson && _) = _
    rw [same_toJson x y hxs.1 hys.1, itemsSame_itemNodes xs ys hxs.2 hys.2, itemsAlike]

end

end Schema

end ApiOutline
