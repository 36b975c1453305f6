/-
ApiOutline/Proofs/Removal.lean

What removal takes out of a document, and what it leaves.

Design.  A removal filters the paths.  Done in place, it takes paths and operations out one by
one, by a loop in a loop.  The loops go over lists that were drawn up before, and each look-up
on the way may find nothing any more; so they are written down with every such look-up
(`remove?`), and they are shown to come to the filter (`remove?_eq`).  What carries them is that
the document stays in order after every single removal: a path that is there has operations.

What is left is then read off the list of all operations with their routes, in the order of the
document (`entries`): removal filters this list, and a path stays exactly if one of its
operations does.

Main result: `run_removes_exactly`.
-/
import ApiOutline.Proofs.History

namespace ApiOutline

/-! ### One operation after the other -/

namespace Document

/-- Takes an operation out of its path, if it is there, and then the path if it has no other; the
path must be found again when it is to go. -/
def removeOperation? (r : Route) (doc : Document) : Option Document :=
  match Table.get? doc.paths r.key with
  | none => some doc
  | some ops =>
    match Table.get? ops r.method with
    | none => some doc
    | some _ =>
      let left := { doc with paths := doc.paths.set r.key (Table.erase ops r.method) }
      if Table.erase ops r.method = [] then
        (Table.get? left.paths r.key).map fun _ =>
          { left with paths := Table.erase left.paths r.key }
      else some left

/-- Goes over the operations that a path had, and removes those that carry a tag. -/
def sweepPath? (tag key : String) : List (Method × Operation) → Document → Option Document
  | [], doc => some doc
  | (m, op) :: ops, doc => do
    let doc ← if op.carries tag = true then doc.removeOperation? ⟨key, m⟩ else some doc
    sweepPath? tag key ops doc

/-- Goes over the paths that a document had; each must be found when its turn comes. -/
def sweep? (tag : String) : List String → Document → Option Document
  | [], doc => some doc
  | key :: keys, doc => do
    let ops ← Table.get? doc.paths key
    let doc ← sweepPath? tag key ops doc
    sweep? tag keys doc

/-- Removal of a path, of all operations with a tag, or of both, one operation after the other. -/
def remove? (template tag : Option String) (doc : Document) : Option Document :=
  let doc := match template with
    | some t => doc.removePath t
    | none => doc
  match tag with
  | some t => doc.sweep? t (Table.keys doc.paths)
  | none => some doc

variable {doc : Document}

/-- In a document in order, the path of an operation that is there is found, and is found again. -/
theorem removeOperation?_eq (h : doc.Valid) (r : Route) :
    doc.removeOperation? r = some (doc.removeRoute r) := by
  rw [removeOperation?, removeRoute, path]
  rcases hpath : Table.get? doc.paths r.key with - | ops
  · -- neither the path nor the operation is there
    have hkey : Table.erase doc.paths r.key = doc.paths :=
      Table.erase_of_not_mem_keys ((Table.get?_eq_none_iff _ _).mp hpath)
    show some doc = some { doc with paths := Table.erase doc.paths r.key }
    rw [hkey]
  · rw [Option.getD_some]
    dsimp only
    rcases hop : Table.get? ops r.method with - | op
    · have hne : ops ≠ [] := (h.paths _ (Table.mem_of_get?_eq_some hpath)).nonempty
      have hkept : Table.erase ops r.method = ops :=
        Table.erase_of_not_mem_keys ((Table.get?_eq_none_iff _ _).mp hop)
      rw [hkept]
      -- the operation is not there, and its path is not empty
      rcases ops with - | ⟨o, ops⟩
      · exact absurd rfl hne
      · show some doc = some { doc with paths := doc.paths.set r.key (o :: ops) }
        rw [Table.set_of_get?_eq_some hpath]
    · dsimp only
      rw [Table.get?_set_self, Option.map_some, Table.erase_set]
      rcases Table.erase ops r.method with - | ⟨o, left⟩ <;> rfl

/-- Taking operations away one by one keeps a document in order. -/
theorem Valid.foldl_removeRoute (h : doc.Valid) (key : String) (ops : List (Method × Operation)) :
    (ops.foldl (fun doc o => doc.removeRoute ⟨key, o.1⟩) doc).Valid := by
  induction ops generalizing doc with
  | nil => exact h
  | cons o ops ih => exact ih (h.removeRoute ⟨key, o.1⟩)

theorem sweepPath?_eq (h : doc.Valid) (tag key : String) (ops : List (Method × Operation)) :
    doc.sweepPath? tag key ops =
      some ((ops.filter fun o => o.2.carries tag).foldl
        (fun doc o => doc.removeRoute ⟨key, o.1⟩) doc) := by
  induction ops generalizing doc with
  | nil => rfl
  | cons o ops ih =>
    obtain ⟨m, op⟩ := o
    rw [sweepPath?, List.filter_cons]
    dsimp only
    rcases op.carries tag with - | -
    · exact ih h
    · rw [if_pos rfl, removeOperation?_eq h]
      exact ih (h.removeRoute ⟨key, m⟩)

theorem sweep?_eq (h : doc.Valid) (tag : String) (keys : List String) :
    doc.sweep? tag keys = removeTagFrom? tag keys doc := by
  induction keys generalizing doc with
  | nil => rfl
  | cons key keys ih =>
    rw [sweep?, removeTagFrom?]
    rcases Table.get? doc.paths key with - | ops
    · rfl
    · show (doc.sweepPath? tag key ops >>= fun doc => doc.sweep? tag keys) = _
      rw [sweepPath?_eq h]
      exact ih (h.foldl_removeRoute key _)

/-- **Removal finds what it looks up.**  One operation after the other, it comes to what filtering
comes to. -/
theorem remove?_eq (h : doc.Valid) (template tag : Option String) :
    doc.remove? template tag = some (Session.removal doc template tag) := by
  have hpath : (Session.removal doc template none).Valid := by
    cases template with
    | none => exact h
    | some t => exact h.removePath t
  -- the path goes first, and the tag is swept from what is left
  have hremove : doc.remove? template tag =
      match tag with
      | some t => (Session.removal doc template none).sweep? t
          (Table.keys (Session.removal doc template none).paths)
      | none => some (Session.removal doc template none) := by
    cases template <;> rfl
  rw [hremove]
  cases tag with
  | none => rfl
  | some tag =>
    dsimp only
    rw [sweep?_eq hpath, removeTagFrom?_eq hpath]
    cases template <;> rfl

/-! ### What is left -/

/-- The operations of a table of paths with their routes, in order. -/
def entriesOf (paths : Table String (Table Method Operation)) : List (Route × Operation) :=
  paths.flatMap fun p => p.2.map fun o => (⟨p.1, o.1⟩, o.2)

/-- The operations of a document with their routes, in order. -/
def entries (doc : Document) : List (Route × Operation) := entriesOf doc.paths

/-- Removal leaves the operation: it stands under another key and does not carry the tag. -/
def spared (template tag : Option String) (e : Route × Operation) : Bool :=
  !(template.any fun t => Template.keyOf t = e.1.key) && !(tag.any fun t => e.2.carries t)

/-- The document is left by a removal: the operations that are spared stay as they are and in
their order, the paths with such an operation stay in their order, and nothing else changes. -/
structure LeftBy (template tag : Option String) (doc after : Document) : Prop where
  entries : after.entries = doc.entries.filter (spared template tag)
  paths : Table.keys after.paths = (Table.keys doc.paths).filter fun key =>
    doc.entries.any fun e => e.1.key = key && spared template tag e
  rest : after = { doc with paths := after.paths }

theorem entriesOf_cons (p : String × Table Method Operation)
    (paths : Table String (Table Method Operation)) :
    entriesOf (p :: paths) = (p.2.map fun o => (⟨p.1, o.1⟩, o.2)) ++ entriesOf paths :=
  List.flatMap_cons

theorem entriesOf_entry_append (key : String) (ops : Table Method Operation)
    (paths : Table String (Table Method Operation)) :
    entriesOf (entry key ops ++ paths) =
      (ops.map fun o => (⟨key, o.1⟩, o.2)) ++ entriesOf paths := by
  rw [entry]
  split
  · rename_i hnil
    rw [hnil]
    rfl
  · rfl

theorem entriesOf_erase {paths : Table String (Table Method Operation)}
    (h : (Table.keys paths).Nodup) (key : String) :
    entriesOf (Table.erase paths key) = (entriesOf paths).filter fun e => !(key = e.1.key) := by
  induction paths with
  | nil => rfl
  | cons p paths ih =>
    obtain ⟨k, ops⟩ := p
    obtain ⟨hk, hpaths⟩ := List.nodup_cons.mp h
    rw [entriesOf_cons, List.filter_append, ← ih hpaths, List.filter_map, Table.erase]
    by_cases hkey : k = key
    · subst hkey
      rw [if_pos rfl, Table.erase_of_not_mem_keys hk]
      simp [Function.comp_def]
    · have hkept : ops.filter (fun _ => !(key = k : Bool)) = ops :=
        List.filter_eq_self.mpr fun o _ => by simp [Ne.symm hkey]
      rw [if_neg hkey, entriesOf_cons]
      show _ = (ops.filter fun _ => !(key = k : Bool)).map _ ++ _
      rw [hkept]

theorem entriesOf_filterMap_untagged (tag : String)
    (paths : Table String (Table Method Operation)) :
    entriesOf (paths.filterMap (Valid.untagged tag)) =
      (entriesOf paths).filter fun e => !e.2.carries tag := by
  induction paths with
  | nil => rfl
  | cons p paths ih =>
    rw [filterMap_untagged_cons, entriesOf_entry_append, ih, entriesOf_cons, List.filter_append,
      List.filter_map]
    rfl

theorem entries_removal (h : doc.Valid) (template tag : Option String) :
    (Session.removal doc template tag).entries = doc.entries.filter (spared template tag) := by
  have hpath : (Session.removal doc template none).entries =
      doc.entries.filter fun e => !(template.any fun t => Template.keyOf t = e.1.key) := by
    cases template with
    | none => exact (List.filter_eq_self.mpr fun e _ => rfl).symm
    | some t => exact entriesOf_erase h.nodup (Template.keyOf t)
  have hspared : doc.entries.filter (spared template tag) =
      (Session.removal doc template none).entries.filter fun e =>
        !(tag.any fun t => e.2.carries t) := by
    rw [hpath, List.filter_filter]
    congr 1
    funext e
    exact Bool.and_comm _ _
  rw [hspared]
  cases tag with
  | none => exact (List.filter_eq_self.mpr fun e _ => rfl).symm
  | some tag =>
    have hremove : (Session.removal doc template (some tag)).paths =
        (Session.removal doc template none).paths.filterMap (Valid.untagged tag) := by
      cases template <;> rfl
    rw [entries, hremove]
    exact entriesOf_filterMap_untagged tag _

/-- The paths of a document in order are those of its operations. -/
theorem mem_keys_iff (h : doc.Valid) {key : String} :
    key ∈ Table.keys doc.paths ↔ ∃ e ∈ doc.entries, e.1.key = key := by
  constructor
  · intro hkey
    obtain ⟨p, hp, rfl⟩ := List.mem_map.mp hkey
    obtain ⟨o, ho⟩ := List.exists_mem_of_ne_nil _ (h.paths p hp).nonempty
    exact ⟨_, List.mem_flatMap.mpr ⟨p, hp, List.mem_map_of_mem ho⟩, rfl⟩
  · rintro ⟨e, he, rfl⟩
    obtain ⟨p, hp, he⟩ := List.mem_flatMap.mp he
    obtain ⟨o, -, rfl⟩ := List.mem_map.mp he
    exact List.mem_map_of_mem hp

theorem keys_removal_sublist (doc : Document) (template tag : Option String) :
    (Table.keys (Session.removal doc template tag).paths).Sublist (Table.keys doc.paths) := by
  have hpath : (Table.keys (Session.removal doc template none).paths).Sublist
      (Table.keys doc.paths) := by
    cases template with
    | none => exact List.Sublist.refl _
    | some t => exact (Table.erase_sublist _ _).map Prod.fst
  cases tag with
  | none => exact hpath
  | some tag =>
    refine List.Sublist.trans ?_ hpath
    cases template <;> exact Valid.keys_filterMap_untagged tag _

/-- A part of a list without repetitions is given by what is in it. -/
theorem eq_filter_of_sublist {α : Type} [DecidableEq α] {l m : List α} (h : l.Sublist m)
    (hm : m.Nodup) : l = m.filter (· ∈ l) := by
  induction h with
  | slnil => rfl
  | cons a hsub ih =>
    obtain ⟨ha, hm⟩ := List.nodup_cons.mp hm
    rw [List.filter_cons_of_neg (by simpa using fun h => ha (hsub.subset h))]
    exact ih hm
  | cons_cons a hsub ih =>
    obtain ⟨ha, hm⟩ := List.nodup_cons.mp hm
    rw [List.filter_cons_of_pos (by simp)]
    congr 1
    refine (ih hm).trans (List.filter_congr fun b hb => ?_)
    have hne : b ≠ a := fun he => ha (he ▸ hb)
    simp [hne]

/-- Removal is exact. -/
theorem leftBy_removal (h : doc.Valid) (template tag : Option String) :
    LeftBy template tag doc (Session.removal doc template tag) where
  entries := entries_removal h template tag
  paths := by
    rw [eq_filter_of_sublist (keys_removal_sublist doc template tag) h.nodup]
    refine List.filter_congr fun key _ => ?_
    rw [Bool.eq_iff_iff, decide_eq_true_eq, List.any_eq_true, mem_keys_iff (h.removal template tag),
      entries_removal h]
    simp [and_comm, and_left_comm, List.mem_filter]
  rest := by cases template <;> cases tag <;> rfl

/-! ### An operation that was just stored -/

/-- Taking out an operation that was not there before it was stored leaves what was there. -/
theorem removeRoute_store (h : doc.Valid) {r : Route} (hnone : doc.operation? r = none)
    (op : Operation) : (doc.store r op).removeRoute r = doc := by
  have hmethod : r.method ∉ Table.keys (doc.path r.key) := (Table.get?_eq_none_iff _ _).mp hnone
  have herase : Table.erase ((doc.store r op).path r.key) r.method = doc.path r.key := by
    rw [path, store, Table.get?_set_self, Option.getD_some, Table.erase_set,
      Table.erase_of_not_mem_keys hmethod]
  rw [removeRoute, herase]
  rcases hpath : Table.get? doc.paths r.key with - | ops
  · -- the path is new and goes with the operation
    have hkey : Table.erase doc.paths r.key = doc.paths :=
      Table.erase_of_not_mem_keys ((Table.get?_eq_none_iff _ _).mp hpath)
    have hnil : doc.path r.key = [] := by rw [path, hpath, Option.getD_none]
    rw [hnil]
    show { doc with paths := Table.erase (doc.paths.set r.key _) r.key } = doc
    rw [Table.erase_set, hkey]
  · have hne : ops ≠ [] := (h.paths _ (Table.mem_of_get?_eq_some hpath)).nonempty
    have hops : doc.path r.key = ops := by rw [path, hpath, Option.getD_some]
    rw [hops]
    rcases ops with - | ⟨o, ops⟩
    · exact absurd rfl hne
    · show { doc with paths := (doc.paths.set r.key _).set r.key (o :: ops) } = doc
      rw [Table.set_set, Table.set_of_get?_eq_some hpath]

end Document

/-! ### Sessions -/

namespace Session

/-- Opening a route that has no operation and removing it through the new handle leads back. -/
theorem step_remove_opened {s : Session} (hs : s.Valid) {name template method : String}
    {options : Option Data} {r : Route}
    (hr : (s.step (.register name template method options)).2.result = .ok (.opened r))
    (hnone : s.document.operation? r = none) :
    let opened := (s.step (.register name template method options)).1
    let closed := opened.step (.change name .remove)
    closed.2.result = .ok .done ∧ closed.1.document = s.document ∧
      opened.document.removeOperation? r = some s.document := by
  intro opened closed
  have hopened : opened.Valid := hs.step _
  obtain ⟨m, o, old, op, -, -, -, -, -, hsession⟩ := step_register_opened hr
  have hdocument : opened.document = s.document.store r op := congrArg Session.document hsession
  have hhandle : Table.get? opened.handles name = some ⟨r, .live⟩ := by
    rw [show opened = s.hold name r _ from hsession, hold, Table.get?_set_self]
  have hback : opened.document.removeRoute r = s.document := by
    rw [hdocument, Document.removeRoute_store hs.document hnone]
  have hclosed : closed = (opened.shrink (opened.document.removeRoute r), pure .done) := by
    show opened.step (.change name .remove) = _
    rw [step, hhandle]
    rfl
  refine ⟨by rw [hclosed]; rfl, by rw [hclosed]; exact hback, ?_⟩
  rw [Document.removeOperation?_eq hopened.document, hback]

/-- What can be relied on when operations are removed. -/
structure RemovesExactly (s : Session) : Prop where
  /-- a removal that asks for a path, a tag, both or none is never refused, -/
  answer : ∀ template tag, (s.step (.remove template tag)).2.result = .ok .done
  /-- done one operation after the other it finds all that it looks up, -/
  finds : ∀ template tag,
    s.document.remove? template tag = some (s.step (.remove template tag)).1.document
  /-- and it leaves what it is to leave; -/
  leaves : ∀ template tag,
    Document.LeftBy template tag s.document (s.step (.remove template tag)).1.document
  /-- opening a route that has no operation and removing it through the new handle leads back. -/
  undo : ∀ name template method options r,
    let opened := s.step (.register name template method options)
    opened.2.result = .ok (.opened r) → s.document.operation? r = none →
      let closed := opened.1.step (.change name .remove)
      closed.2.result = .ok .done ∧ closed.1.document = s.document ∧
        opened.1.document.removeOperation? r = some s.document

end Session

/-- **Removal is exact.**  After any steps, removing a path, the operations with a tag, or both
leaves just the other operations, as they are and in their order, and takes away just the paths
that have none left; nothing that is looked up on the way is missing.  A route that is opened anew
and removed at once leaves no trace in the document. -/
theorem run_removes_exactly (title version : String) (steps : List Step) :
    ((Session.start title version).run steps).RemovesExactly := by
  have hs := (Session.Valid.start title version).run steps
  exact
    { answer := fun template tag => rfl
      finds := fun template tag => Document.remove?_eq hs.document template tag
      leaves := fun template tag => Document.leftBy_removal hs.document template tag
      undo := fun name template method options r hr hnone =>
        Session.step_remove_opened hs hr hnone }

/-- Two of four routes have the tag `old`; one of these is the only route of its path. -/
def outdated : List Step :=
  [.register "a" "/pets/{id:1}" "get" (some (.map [(.text "tag", .text "old")])),
    .register "b" "/pets/{id}" "put" (some (.map [(.text "tag", .text "new")])),
    .register "c" "/toys" "get" (some (.map [(.text "tag", .text "old")])),
    .register "d" "/shops" "get" none]

/-- Removal of the routes with this tag, and of one that is opened anew beside others. -/
theorem removes_outdated :
    let s := (Session.start "" "").run outdated
    let after := s.step (.remove none (some "old"))
    let r : Route := ⟨"/pets/{id}", .delete⟩
    let opened := s.step (.register "e" "/pets/{id}" "delete" none)
    let closed := opened.1.step (.change "e" .remove)
    (after.2.result = .ok .done ∧
      s.document.remove? none (some "old") = some after.1.document ∧
      after.1.document.entries =
        [(⟨"/pets/{id}", .put⟩, (Operation.ofTemplate "/pets/{id}").give (.tag "new")),
          (⟨"/shops", .get⟩, Operation.ofTemplate "/shops")] ∧
      Table.keys after.1.document.paths = ["/pets/{id}", "/shops"]) ∧
    (opened.2.result = .ok (.opened r) ∧ s.document.operation? r = none) ∧
      closed.2.result = .ok .done ∧ closed.1.document = s.document := by
  intro s after r opened closed
  have hexact := run_removes_exactly "" "" outdated
  have hleft := hexact.leaves none (some "old")
  have hopened : opened.2.result = .ok (.opened r) := rfl
  have hnone : s.document.operation? r = none := rfl
  obtain ⟨hclosed, hback, -⟩ := hexact.undo "e" "/pets/{id}" "delete" none r hopened hnone
  -- the operations and the paths that are to be left are computed
  exact ⟨⟨hexact.answer none (some "old"), hexact.finds none (some "old"), hleft.entries,
    hleft.paths⟩, ⟨hopened, hnone⟩, hclosed, hback⟩

end ApiOutline
