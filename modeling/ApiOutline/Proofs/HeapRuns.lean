/-
ApiOutline/Proofs/HeapRuns.lean

Heaps and sessions in step.

Design.  A heap shows a session; every step does to the heap what it does to the session,
with the same answer (`Shows.step`).  From there on, whatever is known of sessions is
known of what heaps show, and whatever is known of addresses is known of handles
(`Mirrors`).
-/
import ApiOutline.Proofs.HeapSession

namespace ApiOutline

namespace Heap

variable {h : Heap} {s : Session}

/-! ### Removal -/

theorem address?_unlink (hv : h.document.Valid) (r q : Route) :
    (h.unlink r).address? q = if r = q then none else h.address? q := by
  have hat := Table.at?_remove (keysDistinct hv) r.key q.key r.method q.method
  obtain ⟨key, m⟩ := r
  obtain ⟨key', m'⟩ := q
  simp only [Route.mk.injEq]
  exact hat

theorem document_unlink (h : Heap) (r : Route) :
    (h.unlink r).document = h.document.removeRoute r := by
  have hremove := Table.remove_mapValues h.cells h.paths r.key r.method
  rw [Document.removeRoute_eq]
  show { h.document with paths := Table.mapValues h.cells (Table.remove h.paths r.key r.method) } = _
  rw [← hremove]
  rfl

theorem address?_unlinkPath (hv : h.document.Valid) (key : String) (q : Route) :
    (h.unlinkPath key).address? q = if key = q.key then none else h.address? q :=
  Table.at?_erase (keysDistinct hv) key q.key q.method

@[simp] theorem cells_unlinkPath (h : Heap) (key : String) :
    (h.unlinkPath key).cells = h.cells := rfl

theorem document_unlinkPath (h : Heap) (template : String) :
    (h.unlinkPath (Template.keyOf template)).document = h.document.removePath template := by
  have herase := Table.erase_mapValues h.cells h.paths (Template.keyOf template)
  show { h.document with
    paths := Table.mapValues h.cells (Table.erase h.paths (Template.keyOf template)) } = _
  rw [← herase]
  rfl

theorem address?_unlinkTag (hv : h.document.Valid) (tag : String) (q : Route) :
    (h.unlinkTag tag).address? q =
      (h.address? q).filter fun a => !(h.cells a).carries tag :=
  Table.at?_discard (keysDistinct hv) (fun a => (h.cells a).carries tag) q.key q.method

theorem document_unlinkTag (h : Heap) (tag : String) :
    (h.unlinkTag tag).document = h.document.removeTag tag := by
  have hdiscard := Table.discard_mapValues h.cells (fun op => op.carries tag) h.paths
  rw [Document.removeTag_eq]
  show { h.document with
    paths := Table.mapValues h.cells (Table.discard (fun a => (h.cells a).carries tag) h.paths) } = _
  rw [← hdiscard]
  rfl

theorem document_removal (h : Heap) (template tag : Option String) :
    (h.removal template tag).document = Session.removal h.document template tag := by
  cases template <;> cases tag <;>
    simp only [removal, Session.removal, document_unlinkTag, document_unlinkPath]

/-- After a removal, a route has its address if it is not under the key of the template and what
stands there does not carry the tag. -/
theorem address?_removal (hv : h.document.Valid) (template tag : Option String) (r : Route) :
    (h.removal template tag).address? r =
      (h.address? r).filter fun a =>
        !(template.any fun t => Template.keyOf t = r.key) &&
          !(tag.any fun t => (h.cells a).carries t) := by
  rcases template with - | template
  · rcases tag with - | tag
    · rcases ha : h.address? r with - | a <;> simp [removal, Option.filter, ha]
    · simpa [removal] using address?_unlinkTag hv tag r
  · have hpath := address?_unlinkPath hv (Template.keyOf template) r
    rcases tag with - | tag
    · rw [removal, hpath]
      rcases h.address? r with - | a
      · simp
      · by_cases hkey : Template.keyOf template = r.key <;> simp [Option.filter, hkey]
    · have hvpath : (h.unlinkPath (Template.keyOf template)).document.Valid := by
        rw [document_unlinkPath]
        exact hv.removePath template
      rw [removal, address?_unlinkTag hvpath, hpath]
      by_cases hkey : Template.keyOf template = r.key <;> simp [hkey]

/-! ### One step -/

namespace Shows

theorem document (hs : h.Shows s) : h.document = s.document := by
  obtain ⟨retired, -, rfl⟩ := hs
  rfl

/-- Changes of a document that routes do not see. -/
theorem withDocument (hs : h.Shows s) {h' : Heap} (hpaths : h'.paths = h.paths)
    (hhandles : h'.handles = h.handles) (hcells : h'.cells = h.cells) (hsize : h'.size = h.size) :
    h'.Shows { s with document := h'.document } := by
  obtain ⟨retired, ho, rfl⟩ := hs
  have haddress : h'.address? = h.address? := by
    funext r
    rw [address?, address?, hpaths]
  refine ⟨retired, ?_, ?_⟩
  · rw [haddress]
    exact ho.congr hhandles (Nat.le_of_eq hsize.symm)
  · rw [haddress, session_congr h h' hhandles fun a _ => congrFun hcells a]

theorem get?_handles (hs : h.Shows s) (name : String) :
    ∃ retired, Ordered h.address? retired h ∧ session h.address? retired h = s ∧
      Table.get? s.handles name = (Table.get? h.handles name).map (handle h.address? retired) := by
  obtain ⟨retired, ho, rfl⟩ := hs
  exact ⟨retired, ho, rfl, Table.get?_map _ h.handles name⟩

theorem unlink (hs : h.Shows s) (hv : s.Valid) (r : Route) :
    (h.unlink r).Shows (s.shrink (s.document.removeRoute r)) := by
  have hvalid : h.document.Valid := hs.document ▸ hv.document
  obtain ⟨retired, ho, rfl⟩ := hs
  have hshrink := ho.shows_shrink (h.unlink r) hvalid rfl rfl rfl fun q a ha => by
    rw [address?_unlink hvalid] at ha
    split at ha
    · cases ha
    · exact ha
  rwa [document_unlink] at hshrink

theorem removal (hs : h.Shows s) (hv : s.Valid) (template tag : Option String) :
    (h.removal template tag).Shows (s.shrink (Session.removal s.document template tag)) := by
  have hvalid : h.document.Valid := hs.document ▸ hv.document
  obtain ⟨retired, ho, rfl⟩ := hs
  have hsame : (h.removal template tag).handles = h.handles ∧
      (h.removal template tag).cells = h.cells ∧ (h.removal template tag).size = h.size := by
    cases template <;> cases tag <;> exact ⟨rfl, rfl, rfl⟩
  obtain ⟨hhandles, hcells, hsize⟩ := hsame
  have hshrink := ho.shows_shrink (h.removal template tag) hvalid hhandles hcells hsize fun q a ha => by
    rw [address?_removal hvalid] at ha
    exact (Option.filter_eq_some_iff.mp ha).1
  rwa [document_removal] at hshrink

theorem reset (hs : h.Shows s) (hv : s.Valid) : h.reset.Shows (s.shrink s.document.reset) := by
  have hvalid : h.document.Valid := hs.document ▸ hv.document
  obtain ⟨retired, ho, rfl⟩ := hs
  exact ho.shows_shrink h.reset hvalid rfl rfl rfl fun q a ha => by cases ha

/-- The two leave what the heap shows, and answer the same. -/
def Agrees (x : Except Fault Reply × Heap) (y : Session × Session.Run) : Prop :=
  x.2.Shows y.1 ∧ x.1 = y.2.result

theorem agrees_change (hs : h.Shows s) (hv : s.Valid) (name : String) (c : Change) :
    Agrees (h.step (.change name c)) (s.step (.change name c)) := by
  have hvalid : h.document.Valid := hs.document ▸ hv.document
  obtain ⟨retired, ho, rfl, hget⟩ := hs.get?_handles name
  rcases hp : Table.get? h.handles name with - | p
  · rw [hp] at hget
    rw [step_change_unknown h hp, Session.step, hget]
    exact ⟨hs, rfl⟩
  rw [hp] at hget
  have hstep : (session h.address? retired h).step (.change name c) =
      (session h.address? retired h).change (handle h.address? retired p) c := by
    rw [Session.step, hget]
    rfl
  have hheld : InUse h.address? retired p := ho.held _ (Table.mem_of_get?_eq_some hp)
  have hop := operation?_session hheld
  have hwrite : ∀ op, (h.write p.address op).Shows
      ((session h.address? retired h).store (handle h.address? retired p) op) := fun op =>
    ⟨retired, ho.congr rfl (Nat.le_refl _), ho.session_write hvalid hheld op⟩
  rw [hstep]
  cases c with
  | edit e =>
    rw [step_edit h hp, Session.change, hop]
    dsimp only
    rw [Session.after]
    rcases ((h.cells p.address).edit e).result with f | op
    · exact ⟨hs, rfl⟩
    · exact ⟨hwrite op, rfl⟩
  | apply options =>
    rw [step_apply h hp, Session.change, hop]
    rcases Fault.ofChecked (Options.check options) with f | o
    · exact ⟨hs, rfl⟩
    · refine ⟨hwrite ((h.cells p.address).editUpTo o.edits).1, ?_⟩
      show _ = ((fun _ => Reply.same) <$> ((h.cells p.address).editUpTo o.edits).2).result
      rw [Traced.result_map]
      rfl
  | remove =>
    rw [step_unlink h hp]
    exact ⟨hs.unlink hv p.route, rfl⟩

theorem agrees_register (hs : h.Shows s) (hv : s.Valid) (name template method : String)
    (options : Option Data) :
    Agrees (h.step (.register name template method options))
      (s.step (.register name template method options)) := by
  have hvalid : h.document.Valid := hs.document ▸ hv.document
  obtain ⟨retired, ho, rfl⟩ := hs
  have hs : h.Shows (session h.address? retired h) := ⟨retired, ho, rfl⟩
  have hextend : ∀ op, (h.extend op).Shows (session h.address? retired h) := fun op =>
    ⟨retired, ho.congr rfl (Nat.le_succ _), ho.session_extend hvalid op⟩
  rw [step_register, Session.step, Session.after]
  simp only [Traced.result_bind, Traced.result_ofExcept]
  rcases Method.read method with f | m
  · exact ⟨hs, rfl⟩
  rcases Session.readOptions options with f | o
  · exact ⟨hs, rfl⟩
  have hdoc : (session h.address? retired h).document = h.document := rfl
  have hop := operation?_document h (Route.of template m)
  rw [hdoc]
  simp only [Except.bind, bind, Document.result_register, hop, Operation.result_editAll]
  rcases ha : h.address? (Route.of template m) with - | a
  · dsimp only [Option.map_none, Option.getD_none]
    rcases ((Operation.ofTemplate template).editUpTo o.edits).2.result with f | u
    · exact ⟨hextend _, rfl⟩
    · exact ⟨ho.shows_opened hvalid name ha _, rfl⟩
  · dsimp only [Option.map_some, Option.getD_some]
    rcases ((h.cells a).editUpTo o.edits).2.result with f | u
    · exact ⟨hextend _, rfl⟩
    · exact ⟨ho.shows_reopened (p := ⟨_, a⟩) hvalid name ha _, rfl⟩

/-- **One step.**  A step does to a heap what it does to the session that the heap shows, and
answers the same. -/
theorem step (hs : h.Shows s) (hv : s.Valid) (st : Step) : Agrees (h.step st) (s.step st) := by
  have hs' := hs
  obtain ⟨retired, ho, rfl⟩ := hs'
  cases st with
  | server url description =>
    rw [step_server, Session.step, Session.checked, Session.after, Traced.result_ofExcept]
    rcases Fault.ofChecked (Server.make url description) with f | server
    · exact ⟨hs, rfl⟩
    · exact ⟨hs.withDocument rfl rfl rfl rfl, rfl⟩
  | tag name description =>
    rw [step_tag, Session.step, Session.checked, Session.after, Traced.result_ofExcept]
    rcases Fault.ofChecked (Tag.make name description) with f | tag
    · exact ⟨hs, rfl⟩
    · exact ⟨hs.withDocument rfl rfl rfl rfl, rfl⟩
  | security name fields =>
    rw [step_security, Session.step, Session.checked, Session.after, Traced.result_ofExcept]
    rcases Fault.ofChecked (SecurityScheme.ofFields _) with f | scheme
    · exact ⟨hs, rfl⟩
    · exact ⟨hs.withDocument rfl rfl rfl rfl, rfl⟩
  | schema name outline =>
    cases outline with
    | text outline =>
      rw [step_schema, Session.step, Session.after, Traced.result_mapError]
      rcases (Shape.compile outline).result.mapError Fault.outline with f | schema
      · exact ⟨hs, rfl⟩
      · exact ⟨hs.withDocument rfl rfl rfl rfl, rfl⟩
    | _ => exact ⟨hs, rfl⟩
  | register name template method options => exact agrees_register hs hv name template method options
  | change name c => exact agrees_change hs hv name c
  | remove template tag =>
    rw [step_remove]
    exact ⟨hs.removal hv template tag, rfl⟩
  | removeOperation key method =>
    rw [step_removeOperation, Session.step]
    rcases Method.named? method with - | m
    · exact ⟨hs, rfl⟩
    · exact ⟨hs.unlink hv ⟨key, m⟩, rfl⟩
  | reset =>
    rw [step_reset]
    exact ⟨hs.reset hv, rfl⟩

theorem start (title version : String) :
    (Heap.start title version).Shows (Session.start title version) := by
  refine ⟨[], ?_, rfl⟩
  exact
    { injective := fun q r a hq => by cases hq
      linked := fun r a hr => by cases hr
      given := fun a ha => by cases ha
      nodup := List.nodup_nil
      apart := fun r a hr => by cases hr
      held := fun e he => by cases he }

/-- **Runs.**  A heap and the session that it shows stay together. -/
theorem run (hs : h.Shows s) (hv : s.Valid) (steps : List Step) :
    (h.run steps).Shows (s.run steps) := by
  induction steps generalizing h s with
  | nil => exact hs
  | cons st steps ih => exact ih (hs.step hv st).1 (hv.step st)

end Shows

/-! ### What a session tells of a heap -/

/-- A handle is attached if the document has its operation under its route. -/
def Attached (h : Heap) (p : Pointer) : Prop := h.address? p.route = some p.address

/-- A handle of a session is what a handle of a heap looks like from outside: it has the same
operation, and is live if the other is attached. -/
structure Stands (h : Heap) (s : Session) (p : Pointer) (handle : Handle) : Prop where
  route : handle.route = p.route
  operation? : s.operation? handle = some (h.cells p.address)
  live : handle.binding = .live ↔ h.Attached p

/-- From outside, a heap and a session are the same: the document, the handles, and all answers. -/
structure Mirrors (h : Heap) (s : Session) : Prop where
  document : h.document = s.document
  handles : ∀ name, Option.Rel (h.Stands s) (Table.get? h.handles name) (Table.get? s.handles name)
  answers : ∀ st, (h.step st).1 = (s.step st).2.result

theorem Shows.mirrors (hs : h.Shows s) (hv : s.Valid) : h.Mirrors s where
  document := hs.document
  answers st := (hs.step hv st).2
  handles name := by
    obtain ⟨retired, ho, rfl, hget⟩ := hs.get?_handles name
    rw [hget]
    rcases hp : Table.get? h.handles name with - | p
    · exact .none
    have hheld : InUse h.address? retired p := ho.held _ (Table.mem_of_get?_eq_some hp)
    refine .some ⟨rfl, operation?_session hheld, ?_⟩
    rw [handle, Attached]
    split <;> simp_all

/-- In every run, a heap and a session are the same from outside. -/
theorem mirrors_run (title version : String) (steps : List Step) :
    ((Heap.start title version).run steps).Mirrors ((Session.start title version).run steps) := by
  have hv := Session.Valid.start title version
  have hs : ((Heap.start title version).run steps).Shows _ := (Shows.start title version).run hv steps
  exact hs.mirrors (hv.run steps)

end Heap

end ApiOutline
