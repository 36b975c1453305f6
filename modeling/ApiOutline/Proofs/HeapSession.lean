/-
ApiOutline/Proofs/HeapSession.lean

The session that a heap shows.

Design.  A session is what is left of a heap when addresses are forgotten.  A handle is
live if its route is linked to its address; all other handles point to retired
addresses, and the archive is what stands there.  So a session says of a handle what
can be read off the heap, and nothing else.

That works as long as no address has two uses (`Ordered`): no two routes are linked to
one, and what is linked is not retired.  Every step keeps this, and does to the session
that the heap shows what the step does to sessions (`Shows.step`), so that the two stay
together in every run (`shows_run`).  In removals the links are taken away one by one,
as a session retires one route after the other; for this the links are a parameter, and
not read off the paths.
-/
import ApiOutline.Proofs.HeapPrograms
import ApiOutline.Proofs.History
import Mathlib.Data.List.Nodup

namespace ApiOutline

/-! ### Routes of documents -/

namespace Document

variable {doc : Document}

theorem operation?_of_mem_routes (h : doc.Valid) {r : Route} (hr : r ∈ doc.routes) :
    ∃ op, doc.operation? r = some op := by
  obtain ⟨p, hp, hr⟩ := List.mem_flatMap.mp hr
  obtain ⟨o, ho, rfl⟩ := List.mem_map.mp hr
  exact ⟨o.2, operation?_of_mem h hp ho⟩

theorem nodup_routes (h : doc.Valid) : doc.routes.Nodup := by
  have hkeys : ∀ {α : Type} (t : Table String α), (Table.keys t).Nodup →
      t.Pairwise fun p q => p.1 ≠ q.1 := fun t ht => List.pairwise_map.mp ht
  refine List.nodup_flatMap.mpr ⟨fun p hp => ?_, (hkeys _ h.nodup).imp fun hne => ?_⟩
  · -- under one key, the methods differ
    have hmethods : p.2.Pairwise fun o o' => o.1 ≠ o'.1 :=
      List.pairwise_map.mp (h.paths p hp).nodup
    refine List.pairwise_map.mpr (hmethods.imp fun hne he => ?_)
    exact hne (Route.mk.inj he).2
  · refine List.disjoint_left.mpr ?_
    intro r hr hr'
    obtain ⟨o, -, rfl⟩ := List.mem_map.mp hr
    obtain ⟨o', -, he⟩ := List.mem_map.mp hr'
    exact hne (Route.mk.inj he).1.symm

end Document

namespace Heap

/-! ### Forgetting addresses -/

section

variable (links : Route → Option Address) (retired : List Address)

/-- The handle that a pointer is when addresses are forgotten. -/
def handle (p : Pointer) : Handle where
  route := p.route
  binding :=
    if links p.route = some p.address then .live else .detached (retired.idxOf p.address)

/-- The session that a heap shows. -/
def session (h : Heap) : Session where
  document := h.document
  handles := Table.mapRow (handle links retired) h.handles
  archive := retired.map h.cells

/-- A pointer is in use: its route is linked to its address, or its address is retired. -/
def InUse (p : Pointer) : Prop := links p.route = some p.address ∨ p.address ∈ retired

/-- No address has two uses, and each handle has an address in use. -/
structure Ordered (h : Heap) : Prop where
  /-- no two routes are linked to one address -/
  injective : ∀ q r a, links q = some a → links r = some a → q = r
  /-- what is linked has been given out -/
  linked : ∀ r a, links r = some a → a < h.size
  /-- what is retired has been given out -/
  given : ∀ a ∈ retired, a < h.size
  /-- what is retired is retired once -/
  nodup : retired.Nodup
  /-- what is linked is not retired -/
  apart : ∀ r a, links r = some a → a ∉ retired
  /-- the handles are in use -/
  held : ∀ e ∈ h.handles, InUse links retired e.2

end

/-- A heap shows a session, and is in order. -/
def Shows (h : Heap) (s : Session) : Prop :=
  ∃ retired, Ordered h.address? retired h ∧ session h.address? retired h = s

variable {h h' : Heap} {links links' : Route → Option Address} {retired : List Address}

@[simp] theorem address?_write (h : Heap) (a : Address) (op : Operation) :
    (h.write a op).address? = h.address? := rfl

@[simp] theorem address?_extend (h : Heap) (op : Operation) :
    (h.extend op).address? = h.address? := rfl

@[simp] theorem address?_keep (h : Heap) (name : String) (p : Pointer) :
    (h.keep name p).address? = h.address? := rfl

/-- The operation of a route is what stands at its address. -/
theorem operation?_document (h : Heap) (r : Route) :
    h.document.operation? r = (h.address? r).map h.cells :=
  Table.at?_mapValues h.cells h.paths r.key r.method

theorem keysDistinct (hv : h.document.Valid) : Table.KeysDistinct h.paths :=
  hv.keysDistinct.of_mapValues

theorem handle_of_linked {p : Pointer} (hp : links p.route = some p.address) :
    handle links retired p = ⟨p.route, .live⟩ := by
  rw [handle, if_pos hp]

theorem handle_of_not_linked {p : Pointer} (hp : links p.route ≠ some p.address) :
    handle links retired p = ⟨p.route, .detached (retired.idxOf p.address)⟩ := by
  rw [handle, if_neg hp]

/-- Heaps with the same handles, links and objects in use show the same session, up to the
document. -/
theorem session_congr (h h' : Heap) (hhandles : h'.handles = h.handles)
    (hcells : ∀ a ∈ retired, h'.cells a = h.cells a) :
    session links retired h' =
      { session links retired h with document := h'.document } := by
  have harchive : retired.map h'.cells = retired.map h.cells := List.map_congr_left hcells
  rw [session, session, hhandles, harchive]

/-- A handle has the operation that stands at its address, attached or not. -/
theorem operation?_session {p : Pointer} (hp : InUse h.address? retired p) :
    (session h.address? retired h).operation? (handle h.address? retired p) =
      some (h.cells p.address) := by
  by_cases hlinked : h.address? p.route = some p.address
  · rw [handle_of_linked hlinked]
    show h.document.operation? p.route = _
    rw [operation?_document, hlinked, Option.map_some]
  · rw [handle_of_not_linked hlinked]
    show (retired.map h.cells)[retired.idxOf p.address]? = _
    have hmem : p.address ∈ retired := hp.resolve_left hlinked
    rw [List.getElem?_map, List.getElem?_idxOf hmem, Option.map_some]

/-- What stands at an address that no route is linked to does not show in the document. -/
theorem document_write (hv : h.document.Valid) {a : Address} (ha : ∀ r, h.address? r ≠ some a)
    (op : Operation) : (h.write a op).document = h.document := by
  have hpaths : Table.mapValues (Function.update h.cells a op) h.paths =
      Table.mapValues h.cells h.paths := by
    refine Table.mapValues_congr (keysDistinct hv) fun key m b hb => ?_
    have hne : b ≠ a := by
      rintro rfl
      exact ha ⟨key, m⟩ hb
    exact Function.update_of_ne hne op h.cells
  show { h.document with paths := Table.mapValues (Function.update h.cells a op) h.paths } = _
  rw [hpaths]
  rfl

namespace Ordered

theorem congr (ho : Ordered links retired h) (hhandles : h'.handles = h.handles)
    (hsize : h.size ≤ h'.size) : Ordered links retired h' where
  injective := ho.injective
  linked r a ha := Nat.lt_of_lt_of_le (ho.linked r a ha) hsize
  given a ha := Nat.lt_of_lt_of_le (ho.given a ha) hsize
  nodup := ho.nodup
  apart := ho.apart
  held := by
    rw [hhandles]
    exact ho.held

/-- What is in use has been given out. -/
theorem lt_of_inUse (ho : Ordered links retired h) {p : Pointer} (hp : InUse links retired p) :
    p.address < h.size := by
  rcases hp with hlinked | hretired
  · exact ho.linked _ _ hlinked
  · exact ho.given _ hretired

/-! ### Writing through a handle -/

/-- What stands at the address of a route shows as the operation of the route. -/
theorem document_write_linked (ho : Ordered h.address? retired h) (hv : h.document.Valid)
    {r : Route} {a : Address} (ha : h.address? r = some a) (op : Operation) :
    (h.write a op).document = h.document.store r op := by
  have hpaths : Table.mapValues (Function.update h.cells a op) h.paths =
      (Table.mapValues h.cells h.paths).put r.key r.method op := by
    refine Table.mapValues_update (keysDistinct hv) ha (fun key m hb => ?_) op
    obtain rfl := ho.injective r ⟨key, m⟩ a ha hb
    exact ⟨rfl, rfl⟩
  show { h.document with paths := Table.mapValues (Function.update h.cells a op) h.paths } = _
  rw [hpaths]
  rfl

theorem archive_write (ho : Ordered links retired h) {a : Address} (ha : a ∈ retired)
    (op : Operation) :
    retired.map (h.write a op).cells = (retired.map h.cells).set (retired.idxOf a) op := by
  have hlt : retired.idxOf a < retired.length := List.idxOf_lt_length_iff.mpr ha
  refine List.ext_getElem (by simp) fun i hi hi' => ?_
  have hi'' : i < retired.length := by simpa using hi
  rw [List.getElem_map, List.getElem_set]
  split
  · rename_i heq
    subst heq
    rw [List.getElem_idxOf hlt, cells_write_self]
  · -- no address is retired twice, so nothing else has changed
    rename_i hne
    have hother : retired[i] ≠ a := by
      rintro rfl
      exact hne (ho.nodup.idxOf_getElem i hi'')
    rw [cells_write_of_ne h hother, List.getElem_map]

/-- **Writing.**  Writing at the address of a pointer in use is storing through its handle. -/
theorem session_write (ho : Ordered h.address? retired h) (hv : h.document.Valid)
    {p : Pointer} (hp : InUse h.address? retired p) (op : Operation) :
    session h.address? retired (h.write p.address op) =
      (session h.address? retired h).store (handle h.address? retired p) op := by
  by_cases hlinked : h.address? p.route = some p.address
  · -- the document changes, and the archive does not
    rw [handle_of_linked hlinked]
    have hkept : ∀ a ∈ retired, (h.write p.address op).cells a = h.cells a := by
      intro a ha
      have hne : a ≠ p.address := by
        rintro rfl
        exact ho.apart _ _ hlinked ha
      exact cells_write_of_ne h hne op
    rw [session_congr h (h.write p.address op) rfl hkept, document_write_linked ho hv hlinked op]
    rfl
  · -- the archive changes, and the document does not
    rw [handle_of_not_linked hlinked]
    have hmem : p.address ∈ retired := hp.resolve_left hlinked
    have hdoc := document_write hv (fun r hr => ho.apart r _ hr hmem) op
    rw [session, hdoc, ho.archive_write hmem]
    rfl

/-- What is written at an address that was not given out before does not show. -/
theorem session_extend (ho : Ordered h.address? retired h) (hv : h.document.Valid)
    (op : Operation) :
    session h.address? retired (h.extend op) = session h.address? retired h := by
  have hnew : ∀ r, h.address? r ≠ some h.size := fun r hr => Nat.lt_irrefl _ (ho.linked r _ hr)
  have hkept : ∀ a ∈ retired, (h.extend op).cells a = h.cells a :=
    fun a ha => cells_extend_of_lt h (ho.given a ha) op
  rw [session_congr h (h.extend op) rfl hkept]
  have hdoc : (h.extend op).document = h.document := document_write hv hnew op
  rw [hdoc]
  rfl

end Ordered

/-! ### Registration -/

theorem address?_link (h : Heap) (r q : Route) (a : Address) :
    (h.link r a).address? q = if r = q then some a else h.address? q := by
  have hat := Table.at?_put h.paths r.key q.key r.method q.method a
  obtain ⟨key, m⟩ := r
  obtain ⟨key', m'⟩ := q
  simp only [Route.mk.injEq]
  exact hat

theorem document_link (h : Heap) (r : Route) (a : Address) :
    (h.link r a).document = h.document.store r (h.cells a) := by
  have hput := Table.put_mapValues h.cells h.paths r.key r.method a
  show { h.document with paths := Table.mapValues h.cells (Table.put h.paths r.key r.method a) } = _
  rw [← hput]
  rfl

/-- An address is new if it has been given out and is not in use. -/
structure New (links : Route → Option Address) (retired : List Address) (h : Heap)
    (a : Address) : Prop where
  given : a < h.size
  not_linked : ∀ r, links r ≠ some a
  not_retired : a ∉ retired

/-- The address of a handle is not new. -/
theorem New.ne_held {a : Address} (ha : New links retired h a) (ho : Ordered links retired h)
    {e : String × Pointer} (he : e ∈ h.handles) : e.2.address ≠ a := by
  rintro rfl
  rcases ho.held e he with hlinked | hretired
  · exact ha.not_linked _ hlinked
  · exact ha.not_retired hretired

namespace Ordered

/-- The address that was given out last is new. -/
theorem new_extend (ho : Ordered links retired h) (op : Operation) :
    New links retired (h.extend op) h.size where
  given := Nat.lt_succ_self _
  not_linked r hr := Nat.lt_irrefl _ (ho.linked r _ hr)
  not_retired hmem := Nat.lt_irrefl _ (ho.given _ hmem)

section

variable (ho : Ordered h.address? retired h) {a : Address} (ha : New h.address? retired h a)
  {r : Route} (hr : h.address? r = none)

include ho ha hr

/-- A handle is linked after a route without operation was linked to a new address if it was so
before. -/
theorem linked_link_iff {e : String × Pointer} (he : e ∈ h.handles) :
    (h.link r a).address? e.2.route = some e.2.address ↔
      h.address? e.2.route = some e.2.address := by
  have hne := ha.ne_held ho he
  rw [address?_link]
  split
  · rename_i heq
    rw [← heq, hr]
    refine ⟨fun hsome => absurd (Option.some.inj hsome).symm hne, fun hnone => by cases hnone⟩
  · rfl

theorem link : Ordered (h.link r a).address? retired (h.link r a) where
  injective := by
    intro q q' b hq hq'
    rw [address?_link] at hq hq'
    split at hq <;> split at hq'
    · exact ‹r = q›.symm.trans ‹r = q'›
    · obtain rfl := Option.some.inj hq
      exact absurd hq' (ha.not_linked q')
    · obtain rfl := Option.some.inj hq'
      exact absurd hq (ha.not_linked q)
    · exact ho.injective q q' b hq hq'
  linked := by
    intro q b hq
    rw [address?_link] at hq
    split at hq
    · obtain rfl := Option.some.inj hq
      exact ha.given
    · exact ho.linked q b hq
  given := ho.given
  nodup := ho.nodup
  apart := by
    intro q b hq
    rw [address?_link] at hq
    split at hq
    · obtain rfl := Option.some.inj hq
      exact ha.not_retired
    · exact ho.apart q b hq
  held := fun e he => (ho.held e he).imp_left (ho.linked_link_iff ha hr he).mpr

theorem session_link :
    session (h.link r a).address? retired (h.link r a) =
      { session h.address? retired h with document := h.document.store r (h.cells a) } := by
  have hhandles : Table.mapRow (handle (h.link r a).address? retired) h.handles =
      Table.mapRow (handle h.address? retired) h.handles :=
    List.map_congr_left fun e he => by simp only [handle, ho.linked_link_iff ha hr he]
  rw [session, document_link]
  exact congrArg (Session.mk _ · _) hhandles

end

/-- A handle to a route that is linked may be kept. -/
theorem keep (ho : Ordered links retired h) {p : Pointer} (hp : links p.route = some p.address)
    (name : String) : Ordered links retired (h.keep name p) where
  injective := ho.injective
  linked := ho.linked
  given := ho.given
  nodup := ho.nodup
  apart := ho.apart
  held := by
    intro e he
    rcases Table.mem_of_mem_set he with rfl | he
    · exact .inl hp
    · exact ho.held e he

theorem session_keep {p : Pointer} (hp : links p.route = some p.address) (name : String) :
    session links retired (h.keep name p) =
      (session links retired h).hold name p.route h.document := by
  have hset := Table.set_map (handle links retired) h.handles name p
  rw [handle_of_linked hp] at hset
  exact congrArg (Session.mk _ · _) hset.symm

/-- A new operation that is linked to a route without one is stored there, and held. -/
theorem shows_opened (ho : Ordered h.address? retired h) (hv : h.document.Valid) (name : String)
    {r : Route} (hr : h.address? r = none) (op : Operation) :
    (h.opened name r op).Shows
      ((session h.address? retired h).hold name r (h.document.store r op)) := by
  have hextend : Ordered (h.extend op).address? retired (h.extend op) :=
    ho.congr rfl (Nat.le_succ _)
  have hnew : New (h.extend op).address? retired (h.extend op) h.size := ho.new_extend op
  have hlinked : ((h.extend op).link r h.size).address? r = some h.size := by
    rw [address?_link, if_pos rfl]
  have hsession := ho.session_extend hv op
  have hdoc : (h.extend op).document = h.document := congrArg Session.document hsession
  refine ⟨retired, (hextend.link hnew hr).keep hlinked name, ?_⟩
  rw [opened, address?_keep, session_keep hlinked, hextend.session_link hnew hr, document_link,
    hdoc, cells_extend_self, address?_extend, hsession]
  rfl

/-- An operation that is edited on a copy is stored, and held. -/
theorem shows_reopened (ho : Ordered h.address? retired h) (hv : h.document.Valid)
    (name : String) {p : Pointer} (hp : h.address? p.route = some p.address) (op : Operation) :
    (h.reopened name p op).Shows
      ((session h.address? retired h).hold name p.route (h.document.store p.route op)) := by
  have hextend : Ordered (h.extend op).address? retired (h.extend op) :=
    ho.congr rfl (Nat.le_succ _)
  have hwritten : Ordered h.address? retired ((h.extend op).write p.address op) :=
    hextend.congr rfl (Nat.le_refl _)
  have hsession := ho.session_extend hv op
  have hdoc : (h.extend op).document = h.document := congrArg Session.document hsession
  have hvextend : (h.extend op).document.Valid := hdoc ▸ hv
  have hstore := hextend.session_write hvextend (.inl hp) op
  rw [address?_extend, handle_of_linked hp, hsession] at hstore
  refine ⟨retired, hwritten.keep hp name, ?_⟩
  rw [reopened, address?_keep, address?_write, address?_extend, session_keep hp, hstore,
    hextend.document_write_linked hvextend hp, hdoc]
  rfl

/-! ### Removal -/

/-- The links without those of some routes. -/
def without (rs : List Route) (links : Route → Option Address) : Route → Option Address :=
  fun q => if q ∈ rs then none else links q

theorem retire (ho : Ordered links retired h) {r : Route} {a : Address} (hr : links r = some a) :
    Ordered (without [r] links) (retired ++ [a]) h := by
  have hsub : ∀ q b, without [r] links q = some b → q ≠ r ∧ links q = some b := by
    intro q b hq
    rw [without] at hq
    split at hq
    · cases hq
    · exact ⟨fun heq => by simp_all, hq⟩
  refine ⟨fun q q' b hq hq' => ?_, fun q b hq => ho.linked q b (hsub q b hq).2, fun b hb => ?_,
    ?_, fun q b hq => ?_, fun e he => ?_⟩
  · exact ho.injective q q' b (hsub q b hq).2 (hsub q' b hq').2
  · rcases List.mem_append.mp hb with hb | hb
    · exact ho.given b hb
    · obtain rfl := List.mem_singleton.mp hb
      exact ho.linked r _ hr
  · exact List.nodup_append.mpr ⟨ho.nodup, List.nodup_singleton a, fun b hb c hc heq => by
      obtain rfl := List.mem_singleton.mp hc
      subst heq
      exact ho.apart r _ hr hb⟩
  · obtain ⟨hne, hq⟩ := hsub q b hq
    intro hb
    rcases List.mem_append.mp hb with hb | hb
    · exact ho.apart q b hq hb
    · obtain rfl := List.mem_singleton.mp hb
      exact hne (ho.injective q r _ hq hr)
  · -- the handles that were linked to the address follow it
    rcases ho.held e he with hlinked | hretired
    · by_cases heq : e.2.route = r
      · rw [heq, hr] at hlinked
        right
        rw [← Option.some.inj hlinked]
        exact List.mem_append_right _ (List.mem_singleton_self a)
      · left
        rw [without, if_neg (by simpa using heq), hlinked]
    · exact .inr (List.mem_append_left _ hretired)

/-- The handles to a route are detached when its address is retired. -/
theorem handle_retire (ho : Ordered links retired h) {r : Route} {a : Address}
    (hr : links r = some a) {p : Pointer} (hp : InUse links retired p) :
    Session.Handle.detach r retired.length (handle links retired p) =
      handle (without [r] links) (retired ++ [a]) p := by
  by_cases hlinked : links p.route = some p.address
  · rw [handle_of_linked hlinked]
    by_cases heq : p.route = r
    · -- the address becomes the last one that is retired
      have hgone : without [r] links p.route ≠ some p.address := by simp [without, heq]
      rw [heq, hr] at hlinked
      have haddress : p.address = a := (Option.some.inj hlinked).symm
      rw [handle_of_not_linked hgone, haddress, List.idxOf_append_of_notMem (ho.apart r a hr)]
      simp [Session.Handle.detach, heq]
    · have hkept : without [r] links p.route = some p.address := by
        rw [without, if_neg (by simpa using heq), hlinked]
      rw [handle_of_linked hkept]
      simp [Session.Handle.detach, heq]
  · have hmem : p.address ∈ retired := hp.resolve_left hlinked
    have hgone : without [r] links p.route ≠ some p.address := by
      rw [without]
      split
      · simp
      · exact hlinked
    rw [handle_of_not_linked hlinked, handle_of_not_linked hgone, List.idxOf_append_of_mem hmem]
    simp [Session.Handle.detach]

theorem session_retire (ho : Ordered links retired h) {r : Route} {a : Address}
    (hr : links r = some a) (haddress : h.address? r = some a) :
    (session links retired h).retire r = session (without [r] links) (retired ++ [a]) h := by
  have hop : (session links retired h).document.operation? r = some (h.cells a) := by
    show h.document.operation? r = _
    rw [operation?_document, haddress, Option.map_some]
  have hhandles : (Table.mapRow (handle links retired) h.handles).map
        (fun e => (e.1, Session.Handle.detach r (retired.map h.cells).length e.2)) =
      Table.mapRow (handle (without [r] links) (retired ++ [a])) h.handles := by
    rw [Table.mapRow, List.map_map, List.length_map]
    refine List.map_congr_left fun e he => ?_
    exact congrArg (Prod.mk e.1) (ho.handle_retire hr (ho.held e he))
  have harchive : retired.map h.cells ++ [h.cells a] = (retired ++ [a]).map h.cells := by simp
  rw [Session.retire, hop]
  dsimp only
  rw [session, session, ← harchive, ← hhandles]

/-- Retiring some routes, one after the other, takes away their links. -/
theorem foldl_retire (ho : Ordered links retired h) {rs : List Route} (hrs : rs.Nodup)
    (hlinks : ∀ r ∈ rs, ∃ a, links r = some a ∧ h.address? r = some a) :
    ∃ retired', Ordered (without rs links) retired' h ∧
      rs.foldl Session.retire (session links retired h) = session (without rs links) retired' h := by
  induction rs generalizing links retired with
  | nil =>
    have hsame : without [] links = links := by
      funext q
      simp [without]
    rw [hsame]
    exact ⟨retired, ho, rfl⟩
  | cons r rs ih =>
    obtain ⟨hr, hrs⟩ := List.nodup_cons.mp hrs
    obtain ⟨a, hlinked, haddress⟩ := hlinks r List.mem_cons_self
    have hsame : without rs (without [r] links) = without (r :: rs) links := by
      funext q
      by_cases hq : q = r <;> simp [without, hq]
    have hrest : ∀ q ∈ rs, ∃ b, without [r] links q = some b ∧ h.address? q = some b := by
      intro q hq
      obtain ⟨b, hb, hbaddress⟩ := hlinks q (List.mem_cons_of_mem r hq)
      have hne : q ≠ r := by
        rintro rfl
        exact hr hq
      refine ⟨b, ?_, hbaddress⟩
      rw [without, if_neg (by simpa using hne), hb]
    obtain ⟨retired', horder, hsession⟩ := ih (ho.retire hlinked) hrs hrest
    rw [hsame] at horder hsession
    refine ⟨retired', horder, ?_⟩
    rw [List.foldl_cons, ho.session_retire hlinked haddress, hsession]

/-- **Removal.**  Where links are taken away and all else that handles need stays, the session
shrinks to the document that is left. -/
theorem shows_shrink (ho : Ordered h.address? retired h) (h' : Heap) (hv : h.document.Valid)
    (hhandles : h'.handles = h.handles) (hcells : h'.cells = h.cells) (hsize : h'.size = h.size)
    (hsub : ∀ r a, h'.address? r = some a → h.address? r = some a) :
    h'.Shows ((session h.address? retired h).shrink h'.document) := by
  have hlost : ∀ r, r ∈ Session.lost h.document h'.document ↔
      (∃ a, h.address? r = some a) ∧ h'.address? r = none := by
    intro r
    rw [Session.lost, List.mem_filter, operation?_document h', Option.isNone_map,
      Option.isNone_iff_eq_none]
    refine and_congr_left fun _ => ⟨fun hr => ?_, fun ⟨a, ha⟩ => ?_⟩
    · obtain ⟨op, hop⟩ := Document.operation?_of_mem_routes hv hr
      rw [operation?_document, Option.map_eq_some_iff] at hop
      obtain ⟨a, ha, -⟩ := hop
      exact ⟨a, ha⟩
    · have hop : h.document.operation? r = some (h.cells a) := by
        rw [operation?_document, ha, Option.map_some]
      exact Document.mem_routes hop
  have hnodup : (Session.lost h.document h'.document).Nodup :=
    (Document.nodup_routes hv).filter _
  obtain ⟨retired', horder, hsession⟩ := ho.foldl_retire hnodup fun r hr => by
    obtain ⟨⟨a, ha⟩, -⟩ := (hlost r).mp hr
    exact ⟨a, ha, ha⟩
  have hlinks : without (Session.lost h.document h'.document) h.address? = h'.address? := by
    funext r
    rw [without]
    split
    · rename_i hr
      exact ((hlost r).mp hr).2.symm
    · rename_i hr
      rcases ha : h.address? r with - | a
      · rcases ha' : h'.address? r with - | a'
        · rfl
        · rw [hsub r a' ha'] at ha
          cases ha
      · rcases ha' : h'.address? r with - | a'
        · exact absurd ((hlost r).mpr ⟨⟨a, ha⟩, ha'⟩) hr
        · rw [← ha, hsub r a' ha']
  rw [hlinks] at horder hsession
  refine ⟨retired', horder.congr hhandles (Nat.le_of_eq hsize.symm), ?_⟩
  rw [session_congr h h' hhandles fun a _ => congrFun hcells a, ← hsession]
  rfl

end Ordered

end Heap

end ApiOutline
