/-
ApiOutline/Table.lean

Tables that remember the order in which their keys first arrived.

Design.  A table is the plain list of its entries, so that an order which a
written document shows is part of the value.  `set` replaces the value of a key
where the key stands and appends a new key; `erase` takes the entry out, so a
key that comes back goes to the end.  The lemmas say what each operation does to
the two views `get?` and `keys`, and a table without repeated keys is given by them
(`ext`).  So entries that are written one after the other (`setAll`) change nothing
when they are written once more.  In front of an entry whose key did not come
before, a table can be taken apart (`get?_split` and the two beside it).
-/

namespace ApiOutline

universe u v

/-- A table: entries in order of first arrival. -/
abbrev Table (κ : Type u) (α : Type v) := List (κ × α)

namespace Table

variable {κ : Type u} {α : Type v}

/-- The keys, in order of first arrival. -/
def keys (t : Table κ α) : List κ := t.map Prod.fst

@[simp] theorem keys_nil : keys ([] : Table κ α) = [] := rfl

@[simp] theorem keys_cons (e : κ × α) (t : Table κ α) : keys (e :: t) = e.1 :: keys t := rfl

theorem keys_map {β : Type v} (f : κ × α → β) (t : Table κ α) :
    keys (t.map fun e => (e.1, f e)) = t.keys := by
  simp [keys, Function.comp_def]

variable [DecidableEq κ]

/-- The value under a key. -/
def get? : Table κ α → κ → Option α
  | [], _ => none
  | (k, a) :: t, key => if k = key then some a else get? t key

/-- Writes a value under a key: in place when the key is there, at the end otherwise. -/
def set : Table κ α → κ → α → Table κ α
  | [], key, a => [(key, a)]
  | (k, b) :: t, key, a => if k = key then (k, a) :: t else (k, b) :: set t key a

/-- Takes out the entry of a key. -/
def erase : Table κ α → κ → Table κ α
  | [], _ => []
  | (k, a) :: t, key => if k = key then t else (k, a) :: erase t key

/-- The table of a list of entries: a repeated key keeps its first place and its last value. -/
def ofEntries (entries : List (κ × α)) : Table κ α :=
  entries.foldl (fun t e => t.set e.1 e.2) []

/-! ### What the operations do to the views -/

@[simp] theorem get?_nil (key : κ) : get? ([] : Table κ α) key = none := rfl

/-- A written value is found, and other keys keep theirs. -/
theorem get?_set (t : Table κ α) (key k : κ) (a : α) :
    (t.set key a).get? k = if key = k then some a else t.get? k := by
  induction t with
  | nil => simp [set, get?]
  | cons e t ih =>
    obtain ⟨k', b⟩ := e
    by_cases h : k' = key <;> by_cases hk : key = k <;> by_cases hk' : k' = k <;>
      simp_all [set, get?]

theorem get?_set_self (t : Table κ α) (key : κ) (a : α) : (t.set key a).get? key = some a := by
  rw [get?_set, if_pos rfl]

/-- A key has a value exactly when it is among the keys. -/
theorem get?_eq_none_iff (t : Table κ α) (key : κ) : t.get? key = none ↔ key ∉ t.keys := by
  induction t with
  | nil => simp
  | cons e t ih =>
    obtain ⟨k, a⟩ := e
    by_cases h : k = key <;> simp_all [get?, eq_comm]

/-- A new key is written at the end. -/
theorem set_of_not_mem_keys {t : Table κ α} {key : κ} (h : key ∉ t.keys) (a : α) :
    t.set key a = t ++ [(key, a)] := by
  induction t with
  | nil => rfl
  | cons e t ih =>
    simp only [keys_cons, List.mem_cons, not_or] at h
    rw [set, if_neg (Ne.symm h.1), ih h.2, List.cons_append]

/-- Writing moves no key, and a new key goes to the end. -/
theorem keys_set (t : Table κ α) (key : κ) (a : α) :
    (t.set key a).keys = if key ∈ t.keys then t.keys else t.keys ++ [key] := by
  induction t with
  | nil => simp [set]
  | cons e t ih =>
    obtain ⟨k, b⟩ := e
    by_cases h : k = key
    · simp [set, h]
    · by_cases hk : key ∈ keys t <;> simp_all [set, eq_comm]

/-- Taking an entry out takes its key out and moves no other key. -/
theorem keys_erase (t : Table κ α) (key : κ) : (t.erase key).keys = t.keys.erase key := by
  induction t with
  | nil => rfl
  | cons e t ih =>
    obtain ⟨k, b⟩ := e
    by_cases h : k = key <;> simp_all [erase]

/-- An entry that is taken out is not found, and other keys keep theirs. -/
theorem get?_erase {t : Table κ α} (h : t.keys.Nodup) (key k : κ) :
    (t.erase key).get? k = if key = k then none else t.get? k := by
  induction t with
  | nil => simp [erase]
  | cons e t ih =>
    obtain ⟨l, b⟩ := e
    obtain ⟨hl, ht⟩ := List.nodup_cons.mp h
    by_cases hkey : l = key
    · subst hkey
      by_cases hk : l = k
      · subst hk
        simpa [erase] using (get?_eq_none_iff t l).mpr hl
      · simp [erase, get?, hk]
    · by_cases hk : l = k
      · subst hk
        simp [erase, get?, hkey, Ne.symm hkey]
      · simp [erase, get?, hkey, hk, ih ht]

/-- Of the entries that are kept by their values, a key has the one that it had. -/
theorem get?_filter {t : Table κ α} (h : t.keys.Nodup) (p : α → Bool) (key : κ) :
    get? (t.filter fun e => p e.2) key = (get? t key).filter p := by
  induction t with
  | nil => rfl
  | cons e t ih =>
    obtain ⟨k, a⟩ := e
    obtain ⟨hk, ht⟩ := List.nodup_cons.mp h
    rw [List.filter_cons, get?]
    by_cases hkey : k = key
    · subst hkey
      rw [if_pos rfl]
      rcases hp : p a with - | -
      · -- the entry goes, and no other has its key
        have hnone : get? t k = none := (get?_eq_none_iff t k).mpr hk
        simp [ih ht, hnone, Option.filter, hp]
      · simp [get?, Option.filter, hp]
    · rw [if_neg hkey, ← ih ht]
      split
      · rw [get?, if_neg hkey]
      · rfl

/-! ### Tables from lists of entries -/

/-- Writes entries, one after the other. -/
def setAll (t : Table κ α) (entries : List (κ × α)) : Table κ α :=
  entries.foldl (fun t e => t.set e.1 e.2) t

theorem ofEntries_eq_setAll (entries : List (κ × α)) : ofEntries entries = setAll [] entries := rfl

theorem nodup_keys_set {t : Table κ α} (h : t.keys.Nodup) (key : κ) (a : α) :
    (t.set key a).keys.Nodup := by
  rw [keys_set]
  split
  · exact h
  · rename_i hk
    refine List.nodup_append.mpr ⟨h, by simp, ?_⟩
    rintro k hk' l hl rfl
    obtain rfl := List.mem_singleton.mp hl
    exact hk hk'

theorem nodup_keys_setAll {t : Table κ α} (h : t.keys.Nodup) (entries : List (κ × α)) :
    (t.setAll entries).keys.Nodup := by
  induction entries generalizing t with
  | nil => exact h
  | cons e es ih => exact ih (nodup_keys_set h e.1 e.2)

theorem nodup_keys_ofEntries (entries : List (κ × α)) : (ofEntries entries).keys.Nodup :=
  nodup_keys_setAll (t := []) List.nodup_nil entries

/-- Entries move no key; new keys go to the end, in the order in which they come first. -/
theorem keys_setAll (t : Table κ α) (entries : List (κ × α)) :
    (t.setAll entries).keys =
      t.keys ++ ((entries.map Prod.fst).filter fun key => key ∉ t.keys).eraseDups := by
  induction entries generalizing t with
  | nil => simp [setAll]
  | cons e es ih =>
    show (setAll (t.set e.1 e.2) es).keys = _
    rw [ih, keys_set, List.map_cons, List.filter_cons]
    by_cases h : e.1 ∈ t.keys
    · simp [h]
    · -- the first entry brings its key, which is not new for those after it
      simp only [h, if_false, not_false_eq_true, decide_true, if_true, List.eraseDups_cons,
        List.filter_filter, List.append_assoc, List.singleton_append]
      congr 4
      funext key
      by_cases hkey : key = e.1 <;> simp [hkey]

/-- Under a key stands what it was given last, or what was there before. -/
theorem get?_setAll (t : Table κ α) (entries : List (κ × α)) (key : κ) :
    (t.setAll entries).get? key =
      ((entries.reverse.find? fun e => e.1 = key).map Prod.snd).or (t.get? key) := by
  induction entries generalizing t with
  | nil => rfl
  | cons e es ih =>
    show (setAll (t.set e.1 e.2) es).get? key = _
    rw [ih, get?_set, List.reverse_cons, List.find?_append, Option.map_or, Option.or_assoc]
    by_cases h : e.1 = key <;> simp [h]

/-- The keys of a list of entries stand where they came first. -/
theorem keys_ofEntries (entries : List (κ × α)) :
    (ofEntries entries).keys = (entries.map Prod.fst).eraseDups := by
  have hnew : ((entries.map Prod.fst).filter fun key => key ∉ keys ([] : Table κ α)) =
      entries.map Prod.fst := List.filter_eq_self.mpr fun key _ => by simp
  rw [ofEntries_eq_setAll, keys_setAll, hnew]
  rfl

/-- Under a key stands what it was given last. -/
theorem get?_ofEntries (entries : List (κ × α)) (key : κ) :
    (ofEntries entries).get? key = (entries.reverse.find? fun e => e.1 = key).map Prod.snd := by
  rw [ofEntries_eq_setAll, get?_setAll, get?_nil, Option.or_none]

/-- A table is its keys and what stands under them. -/
theorem ext {t u : Table κ α} (ht : t.keys.Nodup) (hk : t.keys = u.keys)
    (hg : ∀ key, t.get? key = u.get? key) : t = u := by
  induction t generalizing u with
  | nil =>
    cases u with
    | nil => rfl
    | cons e u => cases hk
  | cons d t ih =>
    cases u with
    | nil => cases hk
    | cons e u =>
      obtain ⟨k, a⟩ := d
      obtain ⟨l, b⟩ := e
      obtain ⟨hkey, hkeys⟩ : k = l ∧ keys t = keys u := List.cons.inj hk
      subst hkey
      obtain ⟨hn, ht⟩ := List.nodup_cons.mp ht
      have hab : a = b := by simpa [get?] using hg k
      subst hab
      have htail : t = u := by
        refine ih ht hkeys fun key => ?_
        by_cases hkey : k = key
        · subst hkey
          rw [(get?_eq_none_iff t k).mpr hn, (get?_eq_none_iff u k).mpr (hkeys ▸ hn)]
        · simpa [get?, hkey] using hg key
      rw [htail]

/-- Writing the same entries again changes nothing. -/
theorem setAll_setAll {t : Table κ α} (h : t.keys.Nodup) (entries : List (κ × α)) :
    (t.setAll entries).setAll entries = t.setAll entries := by
  refine ext (nodup_keys_setAll (nodup_keys_setAll h entries) entries) ?_ fun key => ?_
  · -- every key that is written is there already
    have hnone : ((entries.map Prod.fst).filter fun key => key ∉ (t.setAll entries).keys) = [] := by
      refine List.filter_eq_nil_iff.mpr fun key hkey => ?_
      rw [keys_setAll]
      by_cases hold : key ∈ t.keys <;> simp_all
    rw [keys_setAll, hnone]
    simp
  · rw [get?_setAll, get?_setAll, ← Option.or_assoc, Option.or_self]

/-! ### Entries -/

theorem mem_of_get?_eq_some {t : Table κ α} {key : κ} {a : α} (h : t.get? key = some a) :
    (key, a) ∈ t := by
  induction t with
  | nil => cases h
  | cons e t ih =>
    obtain ⟨k, b⟩ := e
    rw [get?] at h
    split at h
    · rename_i hk
      subst hk
      obtain rfl := Option.some.inj h
      exact List.mem_cons_self
    · exact List.mem_cons_of_mem _ (ih h)

/-- Writing back the value that is there changes nothing. -/
theorem set_of_get?_eq_some {t : Table κ α} {key : κ} {a : α} (h : t.get? key = some a) :
    t.set key a = t := by
  induction t with
  | nil => cases h
  | cons e t ih =>
    obtain ⟨k, b⟩ := e
    rw [get?] at h
    by_cases hk : k = key
    · rw [if_pos hk] at h
      rw [set, if_pos hk, Option.some.inj h]
    · rw [if_neg hk] at h
      rw [set, if_neg hk, ih h]

/-- Of two values written under a key the second one stays. -/
theorem set_set (t : Table κ α) (key : κ) (a b : α) : (t.set key a).set key b = t.set key b := by
  induction t with
  | nil => simp [set]
  | cons e t ih =>
    obtain ⟨k, c⟩ := e
    by_cases hk : k = key
    · simp [set, hk]
    · simp [set, hk, ih]

theorem erase_of_not_mem_keys {t : Table κ α} {key : κ} (h : key ∉ t.keys) : t.erase key = t := by
  induction t with
  | nil => rfl
  | cons e t ih =>
    simp only [keys_cons, List.mem_cons, not_or] at h
    rw [erase, if_neg (Ne.symm h.1), ih h.2]

/-- A value that was just written is taken out like the one before it. -/
theorem erase_set (t : Table κ α) (key : κ) (a : α) : (t.set key a).erase key = t.erase key := by
  induction t with
  | nil => simp [set, erase]
  | cons e t ih =>
    obtain ⟨k, b⟩ := e
    by_cases hk : k = key
    · simp [set, erase, hk]
    · simp [set, erase, hk, ih]

theorem erase_sublist (t : Table κ α) (key : κ) : (erase t key).Sublist t := by
  induction t with
  | nil => exact .slnil
  | cons e t ih =>
    rw [erase]
    split
    · exact List.sublist_cons_self _ _
    · exact ih.cons_cons _

theorem mem_of_mem_set {t : Table κ α} {key : κ} {a : α} {e : κ × α} (h : e ∈ set t key a) :
    e = (key, a) ∨ e ∈ t := by
  induction t with
  | nil =>
    left
    simpa [set] using h
  | cons d t ih =>
    obtain ⟨k, b⟩ := d
    rw [set] at h
    split at h
    · rename_i hk
      subst hk
      rcases List.mem_cons.mp h with rfl | h
      · exact .inl rfl
      · exact .inr (List.mem_cons_of_mem _ h)
    · rcases List.mem_cons.mp h with rfl | h
      · exact .inr List.mem_cons_self
      · exact (ih h).imp id (List.mem_cons_of_mem _)

theorem mem_of_mem_setAll {t entries : Table κ α} {e : κ × α} (h : e ∈ setAll t entries) :
    e ∈ entries ∨ e ∈ t := by
  induction entries generalizing t with
  | nil => exact .inr h
  | cons d entries ih =>
    rcases ih h with h | h
    · exact .inl (List.mem_cons_of_mem _ h)
    · rcases mem_of_mem_set h with rfl | h
      · exact .inl List.mem_cons_self
      · exact .inr h

section Split

variable {key : κ} {a : α} {before after : Table κ α}

omit [DecidableEq κ] in
/-- Without repeated keys, the key of an entry did not come before it. -/
theorem not_mem_keys_of_nodup (h : (keys (before ++ (key, a) :: after)).Nodup) :
    key ∉ keys before := by
  intro hk
  rw [keys, List.map_append] at h
  obtain ⟨-, -, hne⟩ := List.nodup_append.mp h
  exact hne key hk key List.mem_cons_self rfl

/-- What a key has not in the first part, it has in the rest. -/
theorem get?_append_right (h : key ∉ keys before) (after : Table κ α) :
    get? (before ++ after) key = get? after key := by
  induction before with
  | nil => rfl
  | cons e before ih =>
    simp only [keys_cons, List.mem_cons, not_or] at h
    rw [List.cons_append, get?, if_neg (Ne.symm h.1), ih h.2]

theorem get?_append_left (before : Table κ α) (h : key ∉ keys after) :
    get? (before ++ after) key = get? before key := by
  induction before with
  | nil => exact (get?_eq_none_iff after key).mpr h
  | cons e before ih => rw [List.cons_append, get?, get?, ih]

theorem get?_split (h : key ∉ keys before) :
    get? (before ++ (key, a) :: after) key = some a := by
  rw [get?_append_right h, get?, if_pos rfl]

/-- In a table without repeated keys an entry is what its key has. -/
theorem get?_of_mem {t : Table κ α} (h : t.keys.Nodup) {e : κ × α} (he : e ∈ t) :
    t.get? e.1 = some e.2 := by
  obtain ⟨before, after, rfl⟩ := List.append_of_mem he
  exact get?_split (not_mem_keys_of_nodup h)

theorem set_split (h : key ∉ keys before) (b : α) :
    set (before ++ (key, a) :: after) key b = before ++ (key, b) :: after := by
  induction before with
  | nil => simp [set]
  | cons e before ih =>
    simp only [keys_cons, List.mem_cons, not_or] at h
    rw [List.cons_append, set, if_neg (Ne.symm h.1), ih h.2, List.cons_append]

theorem erase_split (h : key ∉ keys before) :
    erase (before ++ (key, a) :: after) key = before ++ after := by
  induction before with
  | nil => simp [erase]
  | cons e before ih =>
    simp only [keys_cons, List.mem_cons, not_or] at h
    rw [List.cons_append, erase, if_neg (Ne.symm h.1), ih h.2, List.cons_append]

end Split

/-! ### Tables with other values -/

theorem get?_map {β : Type v} (f : α → β) (t : Table κ α) (key : κ) :
    get? (t.map fun e => (e.1, f e.2)) key = (get? t key).map f := by
  induction t with
  | nil => rfl
  | cons e t ih =>
    obtain ⟨k, b⟩ := e
    rw [List.map_cons, get?, get?]
    split
    · rfl
    · exact ih

theorem set_map {β : Type v} (f : α → β) (t : Table κ α) (key : κ) (a : α) :
    set (t.map fun e => (e.1, f e.2)) key (f a) = (set t key a).map fun e => (e.1, f e.2) := by
  induction t with
  | nil => rfl
  | cons e t ih =>
    obtain ⟨k, b⟩ := e
    rw [List.map_cons, set, set]
    split
    · rfl
    · rw [ih, List.map_cons]

end Table

end ApiOutline
