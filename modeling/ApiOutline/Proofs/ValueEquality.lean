/-
ApiOutline/Proofs/ValueEquality.lean

Equality of document values.

Design.  Two values are equal if they mean the same, and what a value means leaves out just what
equality does not look at: a number is its rational value, so that a whole number and a
floating-point number of one value mean the same, a boolean counts as a number, and an object is
a function of its names, in no order (`meaning`).  In a value without infinities and `nan`, and
without a name that stands twice (`Exact`), equality is equality of meanings; so it is an
equivalence there, which it is not in general.

An object may have fields that another has not; but of two objects with equally many fields none
has, if the fields of one are among those of the other (`fieldsMeaning_eq_iff`).

Main result: `same_iff_meaning`.
-/
import ApiOutline.Proofs.Binary64Value
import ApiOutline.Proofs.NodeEquality

namespace ApiOutline

namespace Json

/-! ### Meanings -/

/-- What a value means. -/
inductive Meaning where
  | null
  | number (value : ℚ)
  | text (value : String)
  | array (items : List Meaning)
  | object (fields : String → Option Meaning)

mutual

/-- What a value means: numbers by value, a boolean as 0 or 1, an object by its names. -/
def meaning : Json → Meaning
  | null => .null
  | boolean b => .number (if b then 1 else 0)
  | integer n => .number n
  | float x => .number x.value
  | text s => .text s
  | array vs => .array (itemsMeaning vs)
  | object fs => .object (fieldsMeaning fs)

/-- What the items of an array mean. -/
def itemsMeaning : List Json → List Meaning
  | [] => []
  | v :: vs => v.meaning :: itemsMeaning vs

/-- What stands under a name. -/
def fieldsMeaning : List (String × Json) → String → Option Meaning
  | [], _ => none
  | (k, v) :: fs, name => if k = name then some v.meaning else fieldsMeaning fs name

end

mutual

/-- The floating-point numbers in the value are canonical, and no name stands twice in an object. -/
def Exact : Json → Prop
  | float x => x.IsCanonical
  | array vs => itemsExact vs
  | object fs => (Table.keys fs).Nodup ∧ fieldsExact fs
  | _ => True

/-- The same for every item of an array. -/
def itemsExact : List Json → Prop
  | [] => True
  | v :: vs => v.Exact ∧ itemsExact vs

/-- The same for every field of an object. -/
def fieldsExact : List (String × Json) → Prop
  | [] => True
  | (_, v) :: fs => v.Exact ∧ fieldsExact fs

end

theorem itemsExact_iff {vs : List Json} : itemsExact vs ↔ ∀ v ∈ vs, v.Exact := by
  induction vs with
  | nil => simp [itemsExact]
  | cons v vs ih => simp [itemsExact, ih]

theorem fieldsExact_iff {fs : List (String × Json)} : fieldsExact fs ↔ ∀ f ∈ fs, f.2.Exact := by
  induction fs with
  | nil => simp [fieldsExact]
  | cons f fs ih => simp [fieldsExact, ih]

theorem fieldsMeaning_eq (fs : List (String × Json)) (name : String) :
    fieldsMeaning fs name = (Table.get? fs name).map meaning := by
  induction fs with
  | nil => rfl
  | cons f fs ih =>
    obtain ⟨k, v⟩ := f
    rw [fieldsMeaning, Table.get?, ih]
    split <;> rfl

end Json

/-! ### Numbers -/

namespace Scalar

/-- The value of a number. -/
def rational? : Scalar → Option ℚ
  | integer n => some n
  | float x => some x.value
  | _ => none

/-- Numbers are equal exactly if their values are, whole numbers and others alike. -/
theorem alike_iff_rational {a b : Scalar} (ha : ∀ x, a = .float x → x.IsCanonical)
    (hb : ∀ x, b = .float x → x.IsCanonical) {p q : ℚ} (hp : a.rational? = some p)
    (hq : b.rational? = some q) : a.alike b = true ↔ p = q := by
  rcases a with s | n | x | c
  · cases hp
  · obtain rfl := Option.some.inj hp
    rcases b with t | m | y | d
    · cases hq
    · obtain rfl := Option.some.inj hq
      simp [alike]
    · obtain rfl := Option.some.inj hq
      rw [alike, decide_eq_true_eq, Binary64.toInt?_eq_some_iff (hb y rfl).isFinite]
      exact eq_comm
    · cases hq
  · obtain rfl := Option.some.inj hp
    rcases b with t | m | y | d
    · cases hq
    · obtain rfl := Option.some.inj hq
      rw [alike, decide_eq_true_eq, Binary64.toInt?_eq_some_iff (ha x rfl).isFinite]
    · obtain rfl := Option.some.inj hq
      exact Binary64.alike_iff_value (ha x rfl) (hb y rfl)
    · cases hq
  · cases hp

end Scalar

namespace Json

/-- What counts as a number means its value. -/
theorem meaning_of_number? {j : Json} {a : Scalar} (h : j.number? = some a) :
    ∃ q, a.rational? = some q ∧ j.meaning = .number q := by
  cases j with
  | boolean b =>
    obtain rfl := Option.some.inj h
    exact ⟨_, rfl, by cases b <;> simp [meaning]⟩
  | integer n =>
    obtain rfl := Option.some.inj h
    exact ⟨_, rfl, rfl⟩
  | float x =>
    obtain rfl := Option.some.inj h
    exact ⟨_, rfl, rfl⟩
  | _ => cases h

theorem meaning_ne_number {j : Json} (h : j.number? = none) (q : ℚ) : j.meaning ≠ .number q := by
  cases j with
  | boolean b => cases h
  | integer n => cases h
  | float x => cases h
  | _ => simp [meaning]

theorem isCanonical_of_number? {j : Json} (hj : j.Exact) {a : Scalar} (h : j.number? = some a) :
    ∀ x, a = .float x → x.IsCanonical := by
  rintro x rfl
  cases j with
  | float y =>
    obtain rfl := Scalar.float.inj (Option.some.inj h)
    exact hj
  | boolean b => cases Option.some.inj h
  | integer n => cases Option.some.inj h
  | _ => cases h

/-- What counts as a number is equal to what means the same number. -/
theorem same_iff_of_number? {j k : Json} (hj : j.Exact) (hk : k.Exact) {a : Scalar}
    (ha : j.number? = some a) : j.same k = true ↔ j.meaning = k.meaning := by
  -- what counts as a number is compared as one, whatever the other value is
  have hsame : j.same k = j.sameNumber k := by
    cases j with
    | null => cases ha
    | text s => cases ha
    | array vs => cases ha
    | object fs => cases ha
    | _ => cases k <;> rfl
  obtain ⟨p, hp, hjp⟩ := meaning_of_number? ha
  rw [hsame, sameNumber, ha, hjp]
  rcases hb : k.number? with - | b
  · exact iff_of_false (by simp) (meaning_ne_number hb p).symm
  · obtain ⟨q, hq, hkq⟩ := meaning_of_number? hb
    rw [hkq, Meaning.number.injEq]
    exact Scalar.alike_iff_rational (isCanonical_of_number? hj ha) (isCanonical_of_number? hk hb)
      hp hq

/-! ### Objects -/

theorem mem_keys_iff {fs : List (String × Json)} {name : String} :
    name ∈ Table.keys fs ↔ fieldsMeaning fs name ≠ none := by
  rw [fieldsMeaning_eq, Ne, Option.map_eq_none_iff, Table.get?_eq_none_iff, not_not]

/-- Objects mean the same if they have equally many fields and those of one are found in the
other. -/
theorem fieldsMeaning_eq_iff {fs gs : List (String × Json)} (hfs : (Table.keys fs).Nodup)
    (hgs : (Table.keys gs).Nodup) :
    fieldsMeaning fs = fieldsMeaning gs ↔
      fs.length = gs.length ∧ ∀ f ∈ fs, fieldsMeaning gs f.1 = some f.2.meaning := by
  have hself : ∀ f ∈ fs, fieldsMeaning fs f.1 = some f.2.meaning := by
    intro f hf
    rw [fieldsMeaning_eq, Table.get?_of_mem hfs hf, Option.map_some]
  have hlength : ∀ fs : List (String × Json), (Table.keys fs).length = fs.length :=
    fun fs => List.length_map _
  constructor
  · intro h
    -- a name stands in an object exactly if something stands under it
    have hperm : (Table.keys fs).Perm (Table.keys gs) := by
      rw [List.perm_ext_iff_of_nodup hfs hgs]
      intro name
      rw [mem_keys_iff, mem_keys_iff, h]
    rw [← hlength, ← hlength, ← h]
    exact ⟨hperm.length_eq, hself⟩
  · rintro ⟨hlen, hfound⟩
    -- no name of the one object is missing in the other, and there are equally many
    have hsub : Table.keys fs ⊆ Table.keys gs := by
      intro name hname
      obtain ⟨f, hf, rfl⟩ := List.mem_map.mp hname
      rw [mem_keys_iff, hfound f hf]
      exact Option.some_ne_none _
    have hperm : (Table.keys fs).Perm (Table.keys gs) :=
      (hfs.subperm hsub).perm_of_length_le (by rw [hlength, hlength, hlen])
    funext name
    by_cases hname : name ∈ Table.keys fs
    · obtain ⟨f, hf, rfl⟩ := List.mem_map.mp hname
      rw [hself f hf, hfound f hf]
    · have hname' : name ∉ Table.keys gs := fun h => hname (hperm.mem_iff.mpr h)
      rw [mem_keys_iff, not_not] at hname hname'
      rw [hname, hname']

/-! ### Values -/

mutual

/-- **Equality of values.**  Exact values are equal exactly if they mean the same. -/
theorem same_iff_meaning : (j k : Json) → j.Exact → k.Exact →
    (j.same k = true ↔ j.meaning = k.meaning)
  | .null, k, hj, hk => by cases k <;> simp [same, sameNumber, number?, meaning]
  | .boolean b, k, hj, hk => same_iff_of_number? hj hk rfl
  | .integer n, k, hj, hk => same_iff_of_number? hj hk rfl
  | .float x, k, hj, hk => same_iff_of_number? hj hk rfl
  | .text s, k, hj, hk => by cases k <;> simp [same, sameNumber, number?, meaning]
  | .array vs, k, hj, hk => by
    cases k with
    | array ws =>
      rw [same, meaning, meaning, Meaning.array.injEq]
      exact itemsSame_iff vs ws hj hk
    | _ => simp [same, sameNumber, number?, meaning]
  | .object fs, k, hj, hk => by
    cases k with
    | object gs =>
      rw [same, meaning, meaning, Meaning.object.injEq, fieldsMeaning_eq_iff hj.1 hk.1,
        Bool.and_eq_true, decide_eq_true_eq, fieldsSame_iff fs gs hj.2 hk.2]
    | _ => simp [same, sameNumber, number?, meaning]

/-- The same for arrays, item by item. -/
theorem itemsSame_iff : (vs ws : List Json) → itemsExact vs → itemsExact ws →
    (itemsSame vs ws = true ↔ itemsMeaning vs = itemsMeaning ws)
  | [], [], hvs, hws => by simp [itemsSame]
  | [], w :: ws, hvs, hws => by simp [itemsSame, itemsMeaning]
  | v :: vs, [], hvs, hws => by simp [itemsSame, itemsMeaning]
  | v :: vs, w :: ws, hvs, hws => by
    rw [itemsSame, itemsMeaning, itemsMeaning, Bool.and_eq_true, List.cons.injEq,
      same_iff_meaning v w hvs.1 hws.1, itemsSame_iff vs ws hvs.2 hws.2]

/-- The same for fields that are found among others. -/
theorem fieldsSame_iff : (fs gs : List (String × Json)) → fieldsExact fs → fieldsExact gs →
    (fieldsSame fs gs = true ↔ ∀ f ∈ fs, fieldsMeaning gs f.1 = some f.2.meaning)
  | [], gs, hfs, hgs => by simp [fieldsSame]
  | (k, v) :: fs, gs, hfs, hgs => by
    rw [fieldsSame, Bool.and_eq_true, fieldsSame_iff fs gs hfs.2 hgs, List.forall_mem_cons,
      fieldsMeaning_eq]
    refine and_congr_left fun _ => ?_
    rcases hget : Table.get? gs k with - | w
    · simp
    · have hw : w.Exact := fieldsExact_iff.mp hgs _ (Table.mem_of_get?_eq_some hget)
      rw [Option.map_some, Option.some.injEq]
      exact (same_iff_meaning v w hfs.1 hw).trans eq_comm

end

end Json

end ApiOutline
