/-
ApiOutline/Proofs/StoredPaths.lean

Documents whose paths are in order.

Design.  A document is in order if its paths stand under normal keys, each
having operations, and if every operation is valid (`Document.Valid`).  Every way
of changing the paths of a document keeps it in order: storing an operation,
taking one away, dropping paths.

The removal of the operations with a tag is written as one filter.  Done path by
path, each path being looked up by its key while others disappear, it finds every
path that it looks up (`removeTagFrom?_eq`), because no path stands twice and
none is empty.
-/
import ApiOutline.Document.Basic
import ApiOutline.Proofs.TemplateKey
import ApiOutline.Proofs.WrittenOperation

namespace ApiOutline

/-! ### Routes of documents -/

namespace Document

variable {doc : Document}

/-- Where a path has operations, it stands in the document. -/
theorem path_eq_nil_or_mem (doc : Document) (key : String) :
    doc.path key = [] ∨ (key, doc.path key) ∈ doc.paths := by
  rw [path]
  rcases hp : Table.get? doc.paths key with - | ops
  · exact .inl rfl
  · exact .inr (Table.mem_of_get?_eq_some hp)

theorem mem_of_operation? {r : Route} {op : Operation} (h : doc.operation? r = some op) :
    (r.key, doc.path r.key) ∈ doc.paths ∧ (r.method, op) ∈ doc.path r.key := by
  have hmem : (r.method, op) ∈ doc.path r.key := Table.mem_of_get?_eq_some h
  rcases doc.path_eq_nil_or_mem r.key with hp | hp
  · rw [hp] at hmem
    cases hmem
  · exact ⟨hp, hmem⟩

theorem mem_routes {r : Route} {op : Operation} (h : doc.operation? r = some op) :
    r ∈ doc.routes := by
  obtain ⟨hpath, hop⟩ := mem_of_operation? h
  exact List.mem_flatMap.mpr ⟨_, hpath, List.mem_map.mpr ⟨_, hop, rfl⟩⟩

theorem operation?_store (doc : Document) (r q : Route) (op : Operation) :
    (doc.store r op).operation? q = if r = q then some op else doc.operation? q := by
  obtain ⟨key, m⟩ := r
  obtain ⟨key', m'⟩ := q
  rw [operation?, path, store, Table.get?_set]
  by_cases hk : key = key'
  · subst hk
    simp [Table.get?_set, operation?]
  · simp [hk, operation?, path]

theorem operation?_store_self (doc : Document) (r : Route) (op : Operation) :
    (doc.store r op).operation? r = some op := by
  rw [operation?_store, if_pos rfl]

end Document

/-! ### Documents in order -/

/-- The operations of a path are in order: there is one, none stands twice, and all are valid. -/
structure PathValid (ops : Table Method Operation) : Prop where
  nonempty : ops ≠ []
  nodup : (Table.keys ops).Nodup
  operations : ∀ o ∈ ops, o.2.Valid

/-- The paths of a document are in order. -/
structure Document.Valid (doc : Document) : Prop where
  normal : ∀ key ∈ Table.keys doc.paths, Template.keyOf key = key
  nodup : (Table.keys doc.paths).Nodup
  paths : ∀ p ∈ doc.paths, PathValid p.2

namespace Document.Valid

variable {doc : Document}

theorem operation (h : doc.Valid) {r : Route} {op : Operation}
    (ho : doc.operation? r = some op) : op.Valid := by
  obtain ⟨hpath, hop⟩ := mem_of_operation? ho
  exact (h.paths _ hpath).operations _ hop

theorem normal_of_operation? (h : doc.Valid) {r : Route} {op : Operation}
    (ho : doc.operation? r = some op) : Template.keyOf r.key = r.key :=
  h.normal _ (List.mem_map_of_mem (mem_of_operation? ho).1)

theorem path_nodup (h : doc.Valid) (key : String) : (Table.keys (doc.path key)).Nodup := by
  rcases doc.path_eq_nil_or_mem key with hp | hp
  · rw [hp]
    exact List.nodup_nil
  · exact (h.paths _ hp).nodup

theorem path_operations (h : doc.Valid) (key : String) : ∀ o ∈ doc.path key, o.2.Valid := by
  rcases doc.path_eq_nil_or_mem key with hp | hp
  · rw [hp]
    simp
  · exact (h.paths _ hp).operations

/-- Paths in order under a normal key keep a document in order. -/
theorem set (h : doc.Valid) {key : String} (hkey : Template.keyOf key = key)
    {ops : Table Method Operation} (hops : PathValid ops) :
    Document.Valid { doc with paths := doc.paths.set key ops } := by
  refine ⟨fun k hk => ?_, Table.nodup_keys_set h.nodup key ops, fun p hp => ?_⟩
  · obtain ⟨p, hp, rfl⟩ := List.mem_map.mp hk
    rcases Table.mem_of_mem_set hp with rfl | hp
    · exact hkey
    · exact h.normal _ (List.mem_map_of_mem hp)
  · rcases Table.mem_of_mem_set hp with rfl | hp
    · exact hops
    · exact h.paths p hp

theorem store (h : doc.Valid) {r : Route} (hkey : Template.keyOf r.key = r.key) {op : Operation}
    (hop : op.Valid) : (doc.store r op).Valid := by
  refine h.set hkey ⟨?_, Table.nodup_keys_set (h.path_nodup r.key) _ _, fun o ho => ?_⟩
  · -- the path has the method that was stored
    intro he
    have hkeys := Table.keys_set (doc.path r.key) r.method op
    rw [he] at hkeys
    split at hkeys
    · rename_i hm
      rw [← hkeys] at hm
      cases hm
    · simp at hkeys
  · rcases Table.mem_of_mem_set ho with rfl | ho
    · exact hop
    · exact h.path_operations r.key o ho

/-- A document some of whose paths are dropped is in order. -/
theorem sublist (h : doc.Valid) {paths : Table String (Table Method Operation)}
    (hs : paths.Sublist doc.paths) : Document.Valid { doc with paths := paths } where
  normal k hk := h.normal k ((hs.map Prod.fst).subset hk)
  nodup := h.nodup.sublist (hs.map Prod.fst)
  paths p hp := h.paths p (hs.subset hp)

theorem removeRoute (h : doc.Valid) (r : Route) : (doc.removeRoute r).Valid := by
  rw [Document.removeRoute]
  split
  · exact h.sublist (Table.erase_sublist _ _)
  · rename_i ops hne
    have hsub : ((doc.path r.key).erase r.method).Sublist (doc.path r.key) :=
      Table.erase_sublist _ _
    -- operations are left, so the path was there, and its key is normal
    rcases doc.path_eq_nil_or_mem r.key with hp | hp
    · rw [hp] at hne
      exact absurd rfl hne
    · have hkey : Template.keyOf r.key = r.key := h.normal _ (List.mem_map_of_mem hp)
      refine h.set hkey ⟨hne, ?_, fun o ho => ?_⟩
      · exact (h.path_nodup r.key).sublist (hsub.map Prod.fst)
      · exact h.path_operations r.key o (hsub.subset ho)

theorem removePath (h : doc.Valid) (template : String) : (doc.removePath template).Valid :=
  h.sublist (Table.erase_sublist _ _)

/-- The path without the operations that carry a tag, if others are left. -/
def untagged (tag : String) (p : String × Table Method Operation) :
    Option (String × Table Method Operation) :=
  match p.2.filter fun o => !o.2.carries tag with
  | [] => none
  | ops => some (p.1, ops)

theorem untagged_eq_some {tag : String} {p q : String × Table Method Operation}
    (h : untagged tag p = some q) : q.1 = p.1 ∧ q.2 ≠ [] ∧ q.2.Sublist p.2 := by
  rw [untagged] at h
  split at h
  · cases h
  · rename_i hne
    obtain rfl := Option.some.inj h
    exact ⟨rfl, hne, List.filter_sublist⟩

theorem keys_filterMap_untagged (tag : String) (paths : Table String (Table Method Operation)) :
    (Table.keys (paths.filterMap (untagged tag))).Sublist (Table.keys paths) := by
  induction paths with
  | nil => exact .slnil
  | cons p paths ih =>
    rw [List.filterMap_cons]
    rcases hp : untagged tag p with - | q
    · exact ih.cons _
    · rw [Table.keys_cons, (untagged_eq_some hp).1]
      exact ih.cons_cons _

theorem removeTag (h : doc.Valid) (tag : String) : (doc.removeTag tag).Valid := by
  have hkeys := keys_filterMap_untagged tag doc.paths
  refine ⟨fun k hk => h.normal k (hkeys.subset hk), h.nodup.sublist hkeys, fun q hq => ?_⟩
  obtain ⟨p, hp, hpq⟩ := List.mem_filterMap.mp hq
  obtain ⟨-, hne, hsub⟩ := untagged_eq_some hpq
  have hvalid := h.paths p hp
  exact
    { nonempty := hne
      nodup := hvalid.nodup.sublist (hsub.map Prod.fst)
      operations := fun o ho => hvalid.operations o (hsub.subset ho) }

theorem reset : doc.reset.Valid where
  normal := by simp [Document.reset]
  nodup := List.nodup_nil
  paths := by simp [Document.reset]

/-- Registration stores a valid operation. -/
theorem register (h : doc.Valid) {template : String} {method : Method} {edits : List Edit}
    {doc' : Document} (hr : (doc.register template method edits).result = .ok doc') :
    ∃ op, op.Valid ∧ doc' = doc.store (Route.of template method) op := by
  rw [Document.register] at hr
  rcases ho : doc.operation? (Route.of template method) with - | op
  · rw [ho] at hr
    obtain ⟨op, hop, hr⟩ := Traced.result_bind_eq_ok_iff.mp hr
    obtain ⟨-, -, hr⟩ := Traced.result_bind_eq_ok_iff.mp hr
    obtain rfl := Except.ok.inj hr
    exact ⟨op, (Operation.Valid.ofTemplate template).editAll hop, rfl⟩
  · rw [ho] at hr
    obtain ⟨op', hop, hr⟩ := Traced.result_bind_eq_ok_iff.mp hr
    obtain rfl := Except.ok.inj hr
    exact ⟨op', (h.operation ho).editAll hop, rfl⟩

end Document.Valid

/-! ### Removal path by path -/

namespace Document

/-- Removes the operations that carry a tag from the paths with the given keys, each of which
must be there when its turn comes. -/
def removeTagFrom? (tag : String) : List String → Document → Option Document
  | [], doc => some doc
  | key :: keys, doc => do
    let ops ← Table.get? doc.paths key
    removeTagFrom? tag keys
      ((ops.filter fun o => o.2.carries tag).foldl (fun doc o => doc.removeRoute ⟨key, o.1⟩) doc)

/-- The entry of a path, if it has operations. -/
def entry (key : String) (ops : Table Method Operation) : Table String (Table Method Operation) :=
  if ops = [] then [] else [(key, ops)]

variable {doc : Document} {key : String} {before after : Table String (Table Method Operation)}

theorem removeRoute_split (hb : key ∉ Table.keys before) {ops : Table Method Operation}
    (hd : doc.paths = before ++ (key, ops) :: after) (m : Method) :
    doc.removeRoute ⟨key, m⟩ =
      { doc with paths := before ++ (entry key (Table.erase ops m) ++ after) } := by
  have hpath : doc.path key = ops := by
    rw [path, hd, Table.get?_split hb]
    rfl
  rw [removeRoute, hpath]
  split
  · rename_i he
    rw [he, hd, Table.erase_split hb]
    rfl
  · rename_i hne
    rw [hd, Table.set_split hb, entry, if_neg hne]
    rfl

/-- Taking away the tagged operations of a path, one by one. -/
theorem foldl_removeRoute (tag : String) (hb : key ∉ Table.keys before)
    (kept : Table Method Operation) {rest : Table Method Operation}
    (hn : (Table.keys (kept ++ rest)).Nodup)
    (hd : doc.paths = before ++ (entry key (kept ++ rest) ++ after)) :
    (rest.filter fun o => o.2.carries tag).foldl (fun doc o => doc.removeRoute ⟨key, o.1⟩) doc =
      { doc with
        paths := before ++ (entry key (kept ++ rest.filter fun o => !o.2.carries tag) ++ after) } := by
  induction rest generalizing kept doc with
  | nil =>
    rw [List.filter_nil, List.filter_nil, List.foldl_nil, ← hd]
  | cons o rest ih =>
    rcases hc : o.2.carries tag with - | -
    · -- the operation stays, behind those kept before
      have happ : kept ++ o :: rest = (kept ++ [o]) ++ rest := by simp
      rw [happ] at hn hd
      rw [List.filter_cons, hc, List.filter_cons, hc]
      simpa using ih (kept ++ [o]) hn hd
    · -- the operation goes, and the path with it if it was the last one
      have hne : kept ++ o :: rest ≠ [] := by simp
      have hmem : o.1 ∉ Table.keys kept := Table.not_mem_keys_of_nodup hn
      have hsub : (Table.keys (kept ++ rest)).Sublist (Table.keys (kept ++ o :: rest)) :=
        ((List.sublist_cons_self o rest).append_left kept).map Prod.fst
      rw [entry, if_neg hne] at hd
      have hremove := removeRoute_split hb hd o.1
      rw [Table.erase_split hmem] at hremove
      rw [List.filter_cons, hc, List.filter_cons, hc]
      simp only [if_true, List.foldl_cons, Bool.not_true]
      rw [hremove, ih kept (hn.sublist hsub) rfl]
      rfl

theorem filterMap_untagged_cons (tag key : String) (ops : Table Method Operation)
    (paths : Table String (Table Method Operation)) :
    ((key, ops) :: paths).filterMap (Valid.untagged tag) =
      entry key (ops.filter fun o => !o.2.carries tag) ++ paths.filterMap (Valid.untagged tag) := by
  rw [List.filterMap_cons, Valid.untagged, entry]
  dsimp only
  generalize (ops.filter fun o => !o.2.carries tag) = left
  cases left <;> rfl

theorem keys_entry_sublist (key : String) (ops : Table Method Operation) :
    (Table.keys (entry key ops)).Sublist [key] := by
  rw [entry]
  split
  · exact List.nil_sublist _
  · exact List.Sublist.refl _

theorem removeTagFrom?_split (tag : String) (before : Table String (Table Method Operation))
    {todo : Table String (Table Method Operation)}
    (hn : (Table.keys (before ++ todo)).Nodup) (hp : ∀ p ∈ todo, PathValid p.2)
    (hd : doc.paths = before ++ todo) :
    removeTagFrom? tag (Table.keys todo) doc =
      some { doc with paths := before ++ todo.filterMap (Valid.untagged tag) } := by
  induction todo generalizing doc before with
  | nil =>
    rw [Table.keys_nil, removeTagFrom?, List.filterMap_nil, ← hd]
  | cons p todo ih =>
    obtain ⟨key, ops⟩ := p
    obtain ⟨hne, hops, -⟩ := hp (key, ops) List.mem_cons_self
    have hb : key ∉ Table.keys before := Table.not_mem_keys_of_nodup hn
    have hget : Table.get? doc.paths key = some ops := by rw [hd, Table.get?_split hb]
    have hentry : doc.paths = before ++ (entry key ([] ++ ops) ++ todo) := by
      rw [hd, List.nil_append, entry, if_neg hne]
      rfl
    have hremove := foldl_removeRoute tag hb [] hops hentry
    have hkeys : (Table.keys
        ((before ++ entry key (ops.filter fun o => !o.2.carries tag)) ++ todo)).Nodup := by
      have hsub := ((List.Sublist.refl (Table.keys before)).append
        (keys_entry_sublist key (ops.filter fun o => !o.2.carries tag))).append_right
        (Table.keys todo)
      rw [Table.keys, List.map_append, List.map_append]
      refine List.Nodup.sublist hsub ?_
      simpa [Table.keys] using hn
    rw [Table.keys_cons, removeTagFrom?, hget, filterMap_untagged_cons]
    -- what is left of this path joins the paths that are done
    show removeTagFrom? tag (Table.keys todo) _ = _
    rw [hremove, ih (before ++ entry key (ops.filter fun o => !o.2.carries tag)) hkeys]
    · simp
    · exact fun q hq => hp q (List.mem_cons_of_mem _ hq)
    · simp

/-- **Removal by tag looks up what is there.**  Done path by path, it finds each path, and comes
to what filtering the paths comes to. -/
theorem removeTagFrom?_eq (h : doc.Valid) (tag : String) :
    removeTagFrom? tag (Table.keys doc.paths) doc = some (doc.removeTag tag) := by
  rw [removeTagFrom?_split tag [] h.nodup h.paths rfl]
  rfl

end Document

end ApiOutline
