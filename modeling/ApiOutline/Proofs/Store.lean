/-
ApiOutline/Proofs/Store.lean

What is true of a session after any steps.

Design.  A session is in order (`Session.Valid`) if its document is, if the
operations that only handles remember are valid too, and if no handle has lost
its operation.  The last part is where removal matters: before a route leaves the
document its operation goes to the archive, and with it every handle that was
live on the route (`Bound.retire`).

Main result: `run_keeps_store`.
-/
import ApiOutline.Document.Session
import ApiOutline.Proofs.StoredPaths

namespace ApiOutline

/-! ### Sessions -/

namespace Session

/-- A session without steps. -/
def start (title version : String) : Session where
  document := { title, version }

/-- Each handle is live on a route of the given kind, or has its place in the archive. -/
def Bound (s : Session) (live : Route → Prop) : Prop :=
  ∀ h ∈ s.handles, match h.2.binding with
    | .live => live h.2.route
    | .detached slot => slot < s.archive.length

/-- The document is in order, and so are the operations that only handles remember; and every
handle has an operation. -/
structure Valid (s : Session) : Prop where
  document : s.document.Valid
  archive : ∀ op ∈ s.archive, op.Valid
  handles : s.Bound fun r => (s.document.operation? r).isSome

variable {s s' : Session} {live live' : Route → Prop}

theorem Bound.mono (h : s.Bound live) (hhandles : s'.handles = s.handles)
    (harchive : s'.archive.length = s.archive.length) (hlive : ∀ r, live r → live' r) :
    s'.Bound live' := by
  intro e he
  rw [hhandles] at he
  have hb := h e he
  rw [harchive]
  split
  · rename_i hbind
    rw [hbind] at hb
    exact hlive _ hb
  · rename_i hbind
    rw [hbind] at hb
    exact hb

theorem Bound.operation? (h : s.Bound fun r => (s.document.operation? r).isSome)
    {e : String × Handle} (he : e ∈ s.handles) : (s.operation? e.2).isSome := by
  have hb := h e he
  rw [Session.operation?]
  split
  · rename_i hbind
    rw [hbind] at hb
    exact hb
  · rename_i hbind
    rw [hbind] at hb
    rw [List.getElem?_eq_getElem hb]
    rfl

theorem document_retire (s : Session) (r : Route) : (s.retire r).document = s.document := by
  rw [retire]
  split <;> rfl

/-- Once its operation is in the archive, no handle is live on a route. -/
theorem Bound.retire (h : s.Bound live) (hlive : ∀ q, live q → (s.document.operation? q).isSome)
    (r : Route) : (s.retire r).Bound fun q => live q ∧ q ≠ r := by
  rw [Session.retire]
  rcases ho : s.document.operation? r with - | op
  · -- no operation, and so no handle that is live on the route
    refine h.mono rfl rfl fun q hq => ⟨hq, ?_⟩
    rintro rfl
    have hsome := hlive q hq
    rw [ho] at hsome
    cases hsome
  · intro e he
    obtain ⟨e, hmem, rfl⟩ := List.mem_map.mp he
    have hb := h e hmem
    obtain ⟨name, q, - | slot⟩ := e
    · -- a live handle is detached if it is on the route, and gets the new place
      by_cases hq : q = r
      · simp [Handle.detach, hq]
      · simpa [Handle.detach, hq] using hb
    · have hlt : slot < s.archive.length := hb
      simp only [Handle.detach, reduceCtorEq, and_false, if_false, List.length_append]
      exact Nat.lt_add_right _ hlt

theorem Bound.foldl_retire (h : s.Bound live)
    (hlive : ∀ q, live q → (s.document.operation? q).isSome) (rs : List Route) :
    (rs.foldl Session.retire s).Bound fun q => live q ∧ q ∉ rs := by
  induction rs generalizing s live with
  | nil => exact h.mono rfl rfl fun q hq => ⟨hq, List.not_mem_nil⟩
  | cons r rs ih =>
    refine (ih (h.retire hlive r) fun q hq => ?_).mono rfl rfl fun q hq => ?_
    · rw [document_retire]
      exact hlive q hq.1
    · obtain ⟨⟨hq, hne⟩, hmem⟩ := hq
      exact ⟨hq, List.not_mem_cons_of_ne_of_not_mem hne hmem⟩

end Session

theorem Document.Valid.removal {doc : Document} (h : doc.Valid) (template tag : Option String) :
    (Session.removal doc template tag).Valid := by
  rcases template with - | template
  · rcases tag with - | tag
    · exact h
    · exact h.removeTag tag
  · rcases tag with - | tag
    · exact h.removePath template
    · exact (h.removePath template).removeTag tag

namespace Session.Valid

variable {s : Session}

theorem operation (h : s.Valid) {handle : Handle} {op : Operation}
    (ho : s.operation? handle = some op) : op.Valid := by
  rw [operation?] at ho
  split at ho
  · exact h.document.operation ho
  · exact h.archive op (List.mem_of_getElem? ho)

theorem storeRoute (h : s.Valid) {r : Route} (hkey : Template.keyOf r.key = r.key)
    {op : Operation} (hop : op.Valid) :
    Session.Valid { s with document := s.document.store r op } := by
  refine ⟨h.document.store hkey hop, h.archive, h.handles.mono rfl rfl fun q hq => ?_⟩
  show ((s.document.store r op).operation? q).isSome
  rw [Document.operation?_store]
  split
  · rfl
  · exact hq

theorem store (h : s.Valid) {handle : Handle} {old op : Operation}
    (ho : s.operation? handle = some old) (hop : op.Valid) : (s.store handle op).Valid := by
  rw [operation?] at ho
  rw [Session.store]
  split at ho
  · exact h.storeRoute (h.document.normal_of_operation? ho) hop
  · refine ⟨h.document, fun q hq => ?_, h.handles.mono rfl List.length_set fun q hq => hq⟩
    rcases List.mem_or_eq_of_mem_set hq with hq | rfl
    · exact h.archive q hq
    · exact hop

theorem archive_retire (hdoc : s.document.Valid) (harchive : ∀ op ∈ s.archive, op.Valid)
    (r : Route) : ∀ op ∈ (s.retire r).archive, op.Valid := by
  rw [Session.retire]
  rcases ho : s.document.operation? r with - | op
  · exact harchive
  · intro q hq
    rcases List.mem_append.mp hq with hq | hq
    · exact harchive q hq
    · obtain rfl := List.mem_singleton.mp hq
      exact hdoc.operation ho

theorem archive_foldl_retire (hdoc : s.document.Valid) (harchive : ∀ op ∈ s.archive, op.Valid)
    (rs : List Route) : ∀ op ∈ (rs.foldl Session.retire s).archive, op.Valid := by
  induction rs generalizing s with
  | nil => exact harchive
  | cons r rs ih =>
    refine ih ?_ (archive_retire hdoc harchive r)
    rw [document_retire]
    exact hdoc

/-- Operations that are removed go to the archive as they are, and their handles with them. -/
theorem shrink (h : s.Valid) {doc : Document} (hdoc : doc.Valid) : (s.shrink doc).Valid := by
  have hretired := h.handles.foldl_retire (fun _ hq => hq) (lost s.document doc)
  refine ⟨hdoc, archive_foldl_retire h.document h.archive _, hretired.mono rfl rfl fun r hr => ?_⟩
  obtain ⟨hsome, hkept⟩ := hr
  obtain ⟨op, ho⟩ := Option.isSome_iff_exists.mp hsome
  -- a route that is live still is one of the document before, and not one of those lost
  show (doc.operation? r).isSome
  rcases hd : doc.operation? r with - | op'
  · refine absurd (List.mem_filter.mpr ⟨Document.mem_routes ho, ?_⟩) hkept
    rw [hd]
    rfl
  · rfl

theorem after (h : s.Valid) {α : Type} {x : Traced Notice Fault α} {f : α → Session × Reply}
    (hf : ∀ a, x.result = .ok a → (f a).1.Valid) : (s.after x f).1.Valid := by
  rw [Session.after]
  rcases hx : x.result with e | a
  · exact h
  · exact hf a hx

/-- What else a document has does not count. -/
theorem congr (h : s.Valid) {doc : Document} (hp : doc.paths = s.document.paths) :
    Session.Valid { s with document := doc } := by
  have hdoc : doc.Valid := by
    obtain ⟨hnormal, hnodup, hpaths⟩ := h.document
    rw [← hp] at hnormal hnodup hpaths
    exact ⟨hnormal, hnodup, hpaths⟩
  refine ⟨hdoc, h.archive, h.handles.mono rfl rfl fun r hr => ?_⟩
  show (doc.operation? r).isSome
  rw [Document.operation?, Document.path] at hr
  rwa [Document.operation?, Document.path, hp]

theorem hold (h : s.Valid) {handle : String} {r : Route} (hkey : Template.keyOf r.key = r.key)
    {op : Operation} (hop : op.Valid) : (s.hold handle r (s.document.store r op)).Valid := by
  have hstore := h.storeRoute hkey hop
  refine ⟨hstore.document, h.archive, fun e he => ?_⟩
  rcases Table.mem_of_mem_set he with rfl | he
  · show ((s.document.store r op).operation? r).isSome
    rw [Document.operation?_store_self]
    rfl
  · exact hstore.handles e he

theorem change (h : s.Valid) (handle : Handle) (c : Change) : (s.change handle c).1.Valid := by
  cases c with
  | edit e =>
    rw [Session.change]
    rcases ho : s.operation? handle with - | op
    · exact h
    · exact h.after fun op' hop => h.store ho ((h.operation ho).edit hop)
  | apply options =>
    rw [Session.change]
    rcases Fault.ofChecked (Options.check options) with f | o
    · exact h
    · rcases ho : s.operation? handle with - | op
      · exact h
      · exact h.store ho ((h.operation ho).editUpTo o.edits)
  | remove => exact h.shrink (h.document.removeRoute handle.route)

theorem removal (h : s.Valid) (template tag : Option String) :
    (Session.removal s.document template tag).Valid :=
  h.document.removal template tag

/-- **One step.**  Every step keeps a session in order, whether it is refused or not. -/
theorem step (h : s.Valid) (st : Step) : (s.step st).1.Valid := by
  cases st with
  | server url description => exact h.after fun server _ => h.congr rfl
  | tag name description => exact h.after fun tag _ => h.congr rfl
  | security name fields => exact h.after fun scheme _ => h.congr rfl
  | schema name outline =>
    cases outline with
    | text outline => exact h.after fun schema _ => h.congr rfl
    | _ => exact h
  | register handle template method options =>
    -- the method, the options and the edits must all be good
    refine h.after fun opened ho => ?_
    obtain ⟨m, -, ho⟩ := Traced.result_bind_eq_ok_iff.mp ho
    obtain ⟨o, -, ho⟩ := Traced.result_bind_eq_ok_iff.mp ho
    obtain ⟨doc, hdoc, ho⟩ := Traced.result_bind_eq_ok_iff.mp ho
    obtain ⟨op, hop, rfl⟩ := h.document.register hdoc
    obtain rfl := Except.ok.inj ho
    have hkey : Template.keyOf (Route.of template m).key = (Route.of template m).key :=
      Template.keyOf_keyOf template
    exact h.hold hkey hop
  | change handle c =>
    rw [Session.step]
    rcases Table.get? s.handles handle with - | held
    · exact h
    · exact h.change held c
  | remove template tag => exact h.shrink (h.removal template tag)
  | removeOperation key method =>
    rw [Session.step]
    rcases Method.named? method with - | m
    · exact h
    · exact h.shrink (h.document.removeRoute ⟨key, m⟩)
  | reset => exact h.shrink .reset

/-- Every run keeps a session in order. -/
theorem run (h : s.Valid) (steps : List Step) : (s.run steps).Valid := by
  induction steps generalizing s with
  | nil => exact h
  | cons st steps ih => exact ih (h.step st)

theorem start (title version : String) : (Session.start title version).Valid where
  document := ⟨by simp [Session.start], List.nodup_nil, by simp [Session.start]⟩
  archive := by simp [Session.start]
  handles := by simp [Bound, Session.start]

end Session.Valid

/-! ### What a session shows -/

namespace Json

/-- The value is a path: a table of operations, at least one, under names of methods in small
letters. -/
def IsPath (j : Json) : Prop :=
  ∃ ops, j = object ops ∧ ops ≠ [] ∧ (Table.keys ops).Nodup ∧
    ∀ o ∈ ops, o.1 ∈ ["get", "post", "put", "patch", "delete", "head", "options"] ∧
      Text.lowerCase o.1.toList = o.1.toList ∧ o.2.IsOperation

/-- The value is a table of paths under normal keys. -/
def IsPaths (j : Json) : Prop :=
  ∃ paths, j = object paths ∧ (Table.keys paths).Nodup ∧
    ∀ p ∈ paths, Template.keyOf p.1 = p.1 ∧ p.2.IsPath

end Json

/-- What can be relied on in a session: the form of its paths, the form of the operation that
each handle has, and that edits and removal find what they look up by name. -/
structure Session.Sound (s : Session) : Prop where
  paths : ∃ paths, (s.document.toJson none none).get? "paths" = some paths ∧ paths.IsPaths
  operations : ∀ handle op, s.operation? handle = some op → op.toJson.IsOperation
  handles : ∀ h ∈ s.handles, (s.operation? h.2).isSome
  respond : ∀ handle op, s.operation? handle = some op → ∀ key r,
    op.toJson.respondAt? key r.toJson =
      some { op with responses := op.responses.set key r : Operation }.toJson
  declare : ∀ handle op, s.operation? handle = some op → ∀ p,
    op.toJson.declareIn? p.toJson =
      some { op with parameters := Parameter.declare op.parameters p : Operation }.toJson
  remove : ∀ template tag,
    let doc := Session.removal s.document template none
    doc.removeTagFrom? tag (Table.keys doc.paths) =
      some (Session.removal s.document template (some tag))

theorem Method.name_injective {m n : Method} (h : m.name = n.name) : m = n := by
  have hm := named?_name m
  rw [h, named?_name] at hm
  exact (Option.some.inj hm).symm

theorem Method.name_mem (m : Method) :
    m.name ∈ ["get", "post", "put", "patch", "delete", "head", "options"] := by
  cases m <;> decide

theorem Method.lowerCase_name (m : Method) : Text.lowerCase m.name.toList = m.name.toList := by
  cases m <;> decide

theorem isPath_of_valid {ops : Table Method Operation} (h : PathValid ops) :
    (Json.object (ops.map fun o => (o.1.name, o.2.toJson))).IsPath := by
  refine ⟨_, rfl, by simpa using h.nonempty, ?_, fun o ho => ?_⟩
  · have hkeys : Table.keys (ops.map fun o => (o.1.name, o.2.toJson)) =
        (Table.keys ops).map Method.name := by
      simp [Table.keys, Function.comp_def]
    rw [hkeys]
    exact List.pairwise_map.mpr
      (h.nodup.imp fun hne he => hne (Method.name_injective he))
  · obtain ⟨q, hq, rfl⟩ := List.mem_map.mp ho
    exact ⟨Method.name_mem q.1, Method.lowerCase_name q.1,
      Json.isOperation_toJson (h.operations q hq)⟩

theorem isPaths_of_valid {doc : Document} (h : doc.Valid) :
    (Json.object (doc.paths.map fun p =>
      (p.1, .object (p.2.map fun o => (o.1.name, o.2.toJson))))).IsPaths := by
  refine ⟨_, rfl, ?_, fun p hp => ?_⟩
  · have hkeys := Table.keys_map
      (fun p => Json.object (p.2.map fun o => (o.1.name, o.2.toJson))) doc.paths
    rw [hkeys]
    exact h.nodup
  · obtain ⟨q, hq, rfl⟩ := List.mem_map.mp hp
    exact ⟨h.normal _ (List.mem_map_of_mem hq), isPath_of_valid (h.paths q hq)⟩

/-- **The store.**  After any steps, refused ones among them, the paths stand under normal keys
and have operations, under methods in small letters, of the form that operations have; every handle
has an operation, of that form too; and so nothing that edits or removal look up by name is ever
missing. -/
theorem run_keeps_store (title version : String) (steps : List Step) :
    ((Session.start title version).run steps).Sound := by
  have h := (Session.Valid.start title version).run steps
  exact
    { paths := ⟨_, rfl, isPaths_of_valid h.document⟩
      operations := fun handle op ho => Json.isOperation_toJson (h.operation ho)
      handles := fun e he => h.handles.operation? he
      respond := fun handle op ho => Json.respondAt?_toJson op
      declare := fun handle op ho => Json.declareIn?_toJson op
      remove := fun template tag => by
        intro doc
        rw [Document.removeTagFrom?_eq (h.removal template none) tag]
        cases template <;> rfl }

end ApiOutline
