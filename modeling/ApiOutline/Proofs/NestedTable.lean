/-
ApiOutline/Proofs/NestedTable.lean

Tables whose values are tables again, and what stands under two keys.

Design.  Paths are a table of tables: a value stands under a key and a method.
What the operations on such tables do is said of the value under two keys (`at?`)
for values of any kind, and separately that they do not look at the values
(`put_mapValues` and the ones beside it).  So the same lemmas serve tables of
operations and tables of addresses at which operations are kept.

A table that holds no key twice, inside or outside, is given by its keys and by
what stands under them (`ext_at?`); in such a table, giving one address another
meaning is writing one value (`mapValues_update`).
-/
import ApiOutline.Table
import Mathlib.Logic.Function.Basic

namespace ApiOutline.Table

universe u v w

variable {κ : Type u} {μ : Type v} {α β : Type w}

/-! ### Operations -/

/-- An entry without some of its values, if others are left. -/
def sieve (p : α → Bool) (e : κ × Table μ α) : Option (κ × Table μ α) :=
  match e.2.filter fun o => !p o.2 with
  | [] => none
  | rest => some (e.1, rest)

/-- Takes out all values of some kind, and the keys that are left without a value. -/
def discard (p : α → Bool) (t : Table κ (Table μ α)) : Table κ (Table μ α) :=
  t.filterMap (sieve p)

/-- A table with other values. -/
def mapRow (f : α → β) (r : Table μ α) : Table μ β := r.map fun o => (o.1, f o.2)

/-- A table of tables with other values. -/
def mapValues (f : α → β) (t : Table κ (Table μ α)) : Table κ (Table μ β) :=
  t.map fun e => (e.1, mapRow f e.2)

/-- No key stands twice, neither outside nor inside. -/
structure KeysDistinct (t : Table κ (Table μ α)) : Prop where
  outer : t.keys.Nodup
  inner : ∀ e ∈ t, (keys e.2).Nodup

variable [DecidableEq κ]

/-- The table under a key; without the key, an empty one. -/
def row (t : Table κ (Table μ α)) (key : κ) : Table μ α := (t.get? key).getD []

section Operations

variable [DecidableEq μ]

/-- The value under two keys. -/
def at? (t : Table κ (Table μ α)) (key : κ) (m : μ) : Option α := (t.row key).get? m

/-- Writes a value under two keys. -/
def put (t : Table κ (Table μ α)) (key : κ) (m : μ) (a : α) : Table κ (Table μ α) :=
  t.set key ((t.row key).set m a)

/-- Takes out the value under two keys, and the first key with the last value under it. -/
def remove (t : Table κ (Table μ α)) (key : κ) (m : μ) : Table κ (Table μ α) :=
  match (t.row key).erase m with
  | [] => t.erase key
  | rest => t.set key rest

end Operations

variable {t u : Table κ (Table μ α)}

/-! ### Rows -/

theorem row_eq_nil_or_mem (t : Table κ (Table μ α)) (key : κ) :
    t.row key = [] ∨ (key, t.row key) ∈ t := by
  rw [row]
  rcases hkey : t.get? key with - | r
  · exact .inl rfl
  · exact .inr (mem_of_get?_eq_some hkey)

theorem row_set (t : Table κ (Table μ α)) (key k : κ) (r : Table μ α) :
    row (t.set key r) k = if key = k then r else t.row k := by
  rw [row, row, get?_set]
  split <;> rfl

theorem row_erase (h : t.keys.Nodup) (key k : κ) :
    row (Table.erase t key) k = if key = k then [] else t.row k := by
  rw [row, row, get?_erase h]
  split <;> rfl

theorem nodup_row (h : t.KeysDistinct) (key : κ) : (t.row key).keys.Nodup := by
  rcases t.row_eq_nil_or_mem key with hnil | hmem
  · rw [hnil]
    exact List.nodup_nil
  · exact h.inner _ hmem

theorem row_discard (h : t.keys.Nodup) (p : α → Bool) (key : κ) :
    (t.discard p).row key = (t.row key).filter fun o => !p o.2 := by
  induction t with
  | nil => rfl
  | cons e t ih =>
    obtain ⟨k, r⟩ := e
    obtain ⟨hk, ht⟩ := List.nodup_cons.mp h
    have hrest : row (t.filterMap (sieve p)) key = (row t key).filter fun o => !p o.2 := ih ht
    rw [discard, List.filterMap_cons, sieve]
    dsimp only
    by_cases hkey : k = key
    · subst hkey
      -- no other entry has the key, before or after
      have hnone : row t k = [] := by rw [row, (get?_eq_none_iff t k).mpr hk, Option.getD_none]
      have hrow : row ((k, r) :: t) k = r := by rw [row, get?, if_pos rfl, Option.getD_some]
      rw [hrow]
      generalize hkept : (r.filter fun o => !p o.2) = kept
      cases kept with
      | nil =>
        rw [hnone] at hrest
        exact hrest
      | cons o kept => rw [row, get?, if_pos rfl, Option.getD_some]
    · have hrow : row ((k, r) :: t) key = row t key := by rw [row, row, get?, if_neg hkey]
      rw [hrow, ← hrest]
      generalize (r.filter fun o => !p o.2) = kept
      cases kept with
      | nil => rfl
      | cons o kept => rw [row, row, get?, if_neg hkey]

/-! ### What stands under two keys -/

section

variable [DecidableEq μ]

theorem at?_put (t : Table κ (Table μ α)) (key k : κ) (m l : μ) (a : α) :
    (t.put key m a).at? k l = if key = k ∧ m = l then some a else t.at? k l := by
  rw [at?, put, row_set]
  by_cases hk : key = k
  · subst hk
    simp [get?_set, at?]
  · simp [hk, at?]

theorem at?_erase (h : t.KeysDistinct) (key k : κ) (m : μ) :
    at? (Table.erase t key) k m = if key = k then none else t.at? k m := by
  rw [at?, at?, row_erase h.outer]
  split <;> rfl

theorem at?_remove (h : t.KeysDistinct) (key k : κ) (m l : μ) :
    (t.remove key m).at? k l = if key = k ∧ m = l then none else t.at? k l := by
  have herase := get?_erase (nodup_row h key) m l
  rw [remove]
  split
  · -- the last value goes, and the key with it
    rename_i hnil
    rw [hnil] at herase
    rw [at?_erase h]
    by_cases hk : key = k
    · subst hk
      by_cases hm : m = l
      · simp [hm]
      · simpa [hm, at?] using herase
    · simp [hk]
  · rw [at?, row_set]
    by_cases hk : key = k
    · subst hk
      simpa [at?] using herase
    · simp [hk, at?]

theorem at?_discard (h : t.KeysDistinct) (p : α → Bool) (key : κ) (m : μ) :
    (t.discard p).at? key m = (t.at? key m).filter fun a => !p a := by
  rw [at?, row_discard h.outer]
  exact get?_filter (nodup_row h key) (fun a => !p a) m

/-- An entry of an entry stands under its two keys. -/
theorem at?_of_mem (h : t.KeysDistinct) {e : κ × Table μ α} (he : e ∈ t) {o : μ × α}
    (ho : o ∈ e.2) : t.at? e.1 o.1 = some o.2 := by
  rw [at?, row, get?_of_mem h.outer he, Option.getD_some, get?_of_mem (h.inner e he) ho]

/-- What stands under two keys is a value of an entry. -/
theorem mem_of_at? {key : κ} {m : μ} {a : α} (h : t.at? key m = some a) :
    (key, t.row key) ∈ t ∧ (m, a) ∈ t.row key := by
  have hmem : (m, a) ∈ t.row key := mem_of_get?_eq_some h
  rcases t.row_eq_nil_or_mem key with hnil | hrow
  · rw [hnil] at hmem
    cases hmem
  · exact ⟨hrow, hmem⟩

end

/-! ### Other values -/

omit [DecidableEq κ] in
theorem keys_mapRow (f : α → β) (r : Table μ α) : (r.mapRow f).keys = r.keys :=
  keys_map (fun o => f o.2) r

omit [DecidableEq κ] in
theorem keys_mapValues (f : α → β) (t : Table κ (Table μ α)) : (t.mapValues f).keys = t.keys :=
  keys_map (fun e => mapRow f e.2) t

omit [DecidableEq κ] in
theorem KeysDistinct.mapValues (f : α → β) (h : t.KeysDistinct) :
    (t.mapValues f).KeysDistinct := by
  refine ⟨keys_mapValues f t ▸ h.outer, fun e he => ?_⟩
  obtain ⟨d, hd, rfl⟩ := List.mem_map.mp he
  exact keys_mapRow f d.2 ▸ h.inner d hd

omit [DecidableEq κ] in
theorem KeysDistinct.of_mapValues {f : α → β} (h : (t.mapValues f).KeysDistinct) :
    t.KeysDistinct := by
  refine ⟨keys_mapValues f t ▸ h.outer, fun e he => ?_⟩
  exact keys_mapRow f e.2 ▸ h.inner _ (List.mem_map_of_mem he)

theorem row_mapValues (f : α → β) (t : Table κ (Table μ α)) (key : κ) :
    (t.mapValues f).row key = (t.row key).mapRow f := by
  have hget : get? (t.mapValues f) key = (get? t key).map (mapRow f) := get?_map (mapRow f) t key
  rw [row, hget, row]
  cases get? t key <;> rfl

omit [DecidableEq κ] in
theorem erase_mapRow [DecidableEq μ] (f : α → β) (r : Table μ α) (m : μ) :
    Table.erase (r.mapRow f) m = mapRow f (Table.erase r m) := by
  induction r with
  | nil => rfl
  | cons o r ih =>
    obtain ⟨l, a⟩ := o
    show Table.erase ((l, f a) :: mapRow f r) m = _
    rw [Table.erase, Table.erase]
    split
    · rfl
    · rw [ih]
      rfl

theorem erase_mapValues (f : α → β) (t : Table κ (Table μ α)) (key : κ) :
    Table.erase (t.mapValues f) key = mapValues f (Table.erase t key) :=
  erase_mapRow (mapRow f) t key

theorem set_mapValues (f : α → β) (t : Table κ (Table μ α)) (key : κ) (r : Table μ α) :
    set (t.mapValues f) key (mapRow f r) = mapValues f (t.set key r) :=
  set_map (mapRow f) t key r

section

variable [DecidableEq μ]

theorem at?_mapValues (f : α → β) (t : Table κ (Table μ α)) (key : κ) (m : μ) :
    (t.mapValues f).at? key m = (t.at? key m).map f := by
  rw [at?, row_mapValues]
  exact get?_map f (t.row key) m

theorem put_mapValues (f : α → β) (t : Table κ (Table μ α)) (key : κ) (m : μ) (a : α) :
    (t.mapValues f).put key m (f a) = (t.put key m a).mapValues f := by
  have hset : set ((t.row key).mapRow f) m (f a) = mapRow f ((t.row key).set m a) :=
    set_map f (t.row key) m a
  rw [put, row_mapValues, hset, set_mapValues]
  rfl

theorem remove_mapValues (f : α → β) (t : Table κ (Table μ α)) (key : κ) (m : μ) :
    (t.mapValues f).remove key m = (t.remove key m).mapValues f := by
  rw [remove, row_mapValues, erase_mapRow, remove]
  generalize Table.erase (t.row key) m = rest
  cases rest with
  | nil => exact erase_mapValues f t key
  | cons o rest => exact set_mapValues f t key (o :: rest)

omit [DecidableEq κ] [DecidableEq μ] in
theorem discard_mapValues (f : α → β) (p : β → Bool) (t : Table κ (Table μ α)) :
    (t.mapValues f).discard p = (t.discard fun a => p (f a)).mapValues f := by
  have hsieve : ∀ e : κ × Table μ α, sieve p (e.1, mapRow f e.2) =
      (sieve (fun a => p (f a)) e).map fun e => (e.1, mapRow f e.2) := by
    intro e
    have hfilter : ((mapRow f e.2).filter fun o => !p o.2) =
        mapRow f (e.2.filter fun o => !p (f o.2)) := List.filter_map
    rw [sieve, sieve, hfilter]
    generalize (e.2.filter fun o => !p (f o.2)) = kept
    cases kept <;> rfl
  rw [discard, discard, mapValues, mapValues, List.filterMap_map, List.map_filterMap]
  congr 1
  funext e
  exact hsieve e

/-! ### Tables given by what stands in them -/

/-- Tables of tables without repeated keys are equal if their keys are the same, outside and
inside, and the same stands under them. -/
theorem ext_at? (ht : t.KeysDistinct) (hk : t.keys = u.keys)
    (hrow : ∀ key, (t.row key).keys = (u.row key).keys)
    (hat : ∀ key m, t.at? key m = u.at? key m) : t = u := by
  refine ext ht.outer hk fun key => ?_
  have hrows : t.row key = u.row key := ext (nodup_row ht key) (hrow key) (hat key)
  have hnone : t.get? key = none ↔ u.get? key = none := by
    rw [get?_eq_none_iff, get?_eq_none_iff, hk]
  rw [row, row] at hrows
  rcases htkey : t.get? key with - | r
  · exact (hnone.mp htkey).symm
  · rcases hukey : u.get? key with - | r'
    · rw [hnone.mpr hukey] at htkey
      cases htkey
    · rw [htkey, hukey] at hrows
      exact congrArg some hrows

/-- What does not stand in a table may stand for anything. -/
theorem mapValues_congr {f g : α → β} (h : t.KeysDistinct)
    (hfg : ∀ key m a, t.at? key m = some a → f a = g a) : t.mapValues f = t.mapValues g := by
  apply List.map_congr_left
  intro e he
  have hrow : mapRow f e.2 = mapRow g e.2 := by
    apply List.map_congr_left
    intro o ho
    rw [hfg e.1 o.1 o.2 (at?_of_mem h he ho)]
  rw [hrow]

/-- Where a value stands under two keys only, giving it another meaning writes that meaning under
these keys. -/
theorem mapValues_update [DecidableEq α] {f : α → β} (h : t.KeysDistinct) {key : κ} {m : μ} {a : α}
    (hat : t.at? key m = some a)
    (hone : ∀ k l, t.at? k l = some a → key = k ∧ m = l) (b : β) :
    t.mapValues (Function.update f a b) = (t.mapValues f).put key m b := by
  obtain ⟨hrow, hvalue⟩ := mem_of_at? hat
  have hkey : key ∈ t.keys := List.mem_map_of_mem hrow
  have hm : m ∈ (t.row key).keys := List.mem_map_of_mem hvalue
  have hkeys : ∀ (g : α → β) (k : κ), ((t.mapValues g).row k).keys = (t.row k).keys := by
    intro g k
    rw [row_mapValues, keys_mapRow]
  apply ext_at? (h.mapValues _)
  · rw [put, keys_set, keys_mapValues, keys_mapValues, if_pos hkey]
  · intro k
    rw [put, row_set, hkeys]
    split
    · rename_i hk
      subst hk
      rw [keys_set, hkeys, if_pos hm]
    · rw [hkeys]
  · intro k l
    rw [at?_put, at?_mapValues, at?_mapValues]
    split
    · rename_i hkl
      obtain ⟨rfl, rfl⟩ := hkl
      rw [hat, Option.map_some, Function.update_self]
    · rename_i hkl
      -- another value stands here, and it means what it meant
      rcases hother : t.at? k l with - | c
      · rfl
      · have hne : c ≠ a := by
          rintro rfl
          exact hkl (hone k l hother)
        rw [Option.map_some, Option.map_some, Function.update_of_ne hne]

end

/-! ### Other keys -/

section

variable [DecidableEq μ]

theorem get?_rename {f : κ → μ} (hf : Function.Injective f) (g : α → β) (t : Table κ α) (key : κ) :
    get? (t.map fun e => (f e.1, g e.2)) (f key) = (t.get? key).map g := by
  induction t with
  | nil => rfl
  | cons e t ih =>
    obtain ⟨k, a⟩ := e
    rw [List.map_cons, get?, get?, ih]
    by_cases hk : k = key
    · simp [hk]
    · have hne : f k ≠ f key := fun heq => hk (hf heq)
      simp [hk, hne]

theorem set_rename {f : κ → μ} (hf : Function.Injective f) (g : α → β) (t : Table κ α) (key : κ)
    (a : α) :
    set (t.map fun e => (f e.1, g e.2)) (f key) (g a) =
      (t.set key a).map fun e => (f e.1, g e.2) := by
  induction t with
  | nil => rfl
  | cons e t ih =>
    obtain ⟨k, b⟩ := e
    rw [List.map_cons, set, set, ih]
    by_cases hk : k = key
    · simp [hk]
    · have hne : f k ≠ f key := fun heq => hk (hf heq)
      simp [hk, hne]

end

end ApiOutline.Table
