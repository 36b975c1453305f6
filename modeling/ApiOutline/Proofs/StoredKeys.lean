/-
ApiOutline/Proofs/StoredKeys.lean

The keys of a document, used as templates.

Design.  A key is its own key and declares the names that its template declares, both for
any text at all (`Template.keyOf_keyOf`, `Template.names_key`): making a token bare neither
makes nor takes away a token, and leaves its name.  What a document has under a key came
there under the key of a template, so the key leads back to it.  Registering it opens the
operation that is there; removing it removes what stands under it.

Main result: `run_keys_are_templates`.
-/
import ApiOutline.Proofs.InPlace
import ApiOutline.Proofs.PathParameters

namespace ApiOutline

/-! ### Writing back what is there -/

/-- Storing the operation that a route has changes nothing. -/
theorem Document.store_of_operation?_eq_some {doc : Document} {r : Route} {op : Operation}
    (h : doc.operation? r = some op) : doc.store r op = doc := by
  rw [operation?, path] at h
  rw [store, path]
  rcases hops : Table.get? doc.paths r.key with - | ops
  · rw [hops] at h
    cases h
  · rw [hops, Option.getD_some] at h
    rw [Option.getD_some, Table.set_of_get?_eq_some h, Table.set_of_get?_eq_some hops]

/-! ### Names -/

namespace Parameter

/-- The names of the parameters that a path template declares. -/
def namesOf (template : String) : List String := (ofTemplate template).map name

/-- A key declares the names that its template declares, in their order. -/
theorem namesOf_keyOf (template : String) :
    namesOf (Template.keyOf template) = namesOf template := by
  have hslots := congrArg (List.map Prod.fst) (map_slot_ofTemplate_keyOf template)
  simp only [List.map_map] at hslots
  exact hslots

end Parameter

/-! ### Stored keys -/

namespace Session

variable {s : Session} {key : String}

/-- As a template, a key addresses the operations that a session has under it, and no others. -/
structure AddressedBy (s : Session) (key : String) : Prop where
  /-- with each method the key names the route that has the key -/
  route : ∀ m, Route.of key m = ⟨key, m⟩
  /-- registering a route that is there gives a live handle to it, and changes nothing -/
  reopen : ∀ name method m, Method.read method = .ok m →
    (s.document.operation? ⟨key, m⟩).isSome →
      let opened := s.step (.register name key method none)
      opened.2.result = .ok (.opened ⟨key, m⟩) ∧ opened.1.document = s.document ∧
        Table.get? opened.1.handles name = some ⟨⟨key, m⟩, .live⟩
  /-- registering with options brings no new path, and edits the one operation -/
  register : ∀ name method options r,
    let opened := s.step (.register name key method options)
    opened.2.result = .ok (.opened r) →
      r.key = key ∧ Method.read method = .ok r.method ∧
        Table.get? opened.1.handles name = some ⟨r, .live⟩ ∧
          Table.keys opened.1.document.paths = Table.keys s.document.paths ∧
            ∀ q, q ≠ r → opened.1.document.operation? q = s.document.operation? q
  /-- removing the key removes its path, and nothing else -/
  remove : (s.step (.remove (some key) none)).1.document =
    { s.document with paths := s.document.paths.erase key }
  removed : ∀ q, (s.step (.remove (some key) none)).1.document.operation? q =
    if key = q.key then none else s.document.operation? q

/-- A text that is its own key is the key of its routes. -/
theorem route_of_keyOf_eq_self (hnormal : Template.keyOf key = key) (m : Method) :
    Route.of key m = ⟨key, m⟩ := congrArg (Route.mk · m) hnormal

/-- Registering a route that is there, under its key and without options, stores the operation
that is there. -/
theorem step_reopen (hnormal : Template.keyOf key = key) (name method : String) {m : Method}
    (hm : Method.read method = .ok m) (hsome : (s.document.operation? ⟨key, m⟩).isSome) :
    let opened := s.step (.register name key method none)
    opened.2.result = .ok (.opened ⟨key, m⟩) ∧ opened.1.document = s.document ∧
      Table.get? opened.1.handles name = some ⟨⟨key, m⟩, .live⟩ := by
  obtain ⟨op, hop⟩ := Option.isSome_iff_exists.mp hsome
  have hroute := route_of_keyOf_eq_self hnormal m
  obtain ⟨hanswer, hsession⟩ := Prod.mk.inj (s.step_open name key method hm)
  rw [hroute] at hanswer
  rw [draft, hroute, hop, Option.getD_some, enter, hroute,
    Document.store_of_operation?_eq_some hop] at hsession
  refine ⟨hanswer, ?_, ?_⟩
  · rw [hsession]
    rfl
  · rw [hsession]
    exact Table.get?_set_self s.handles name _

/-- Registering a key of the document stores one operation, under the path that is there. -/
theorem step_register_key (hnormal : Template.keyOf key = key)
    (hkey : key ∈ Table.keys s.document.paths) (name method : String) (options : Option Data)
    (r : Route) :
    let opened := s.step (.register name key method options)
    opened.2.result = .ok (.opened r) →
      r.key = key ∧ Method.read method = .ok r.method ∧
        Table.get? opened.1.handles name = some ⟨r, .live⟩ ∧
          Table.keys opened.1.document.paths = Table.keys s.document.paths ∧
            ∀ q, q ≠ r → opened.1.document.operation? q = s.document.operation? q := by
  intro opened hr
  obtain ⟨m, o, old, op, hm, -, rfl, -, -, hsession⟩ := step_register_opened hr
  rw [route_of_keyOf_eq_self hnormal] at hsession ⊢
  have hopened : opened.1 = s.hold name ⟨key, m⟩ (s.document.store ⟨key, m⟩ op) := hsession
  rw [hopened]
  refine ⟨rfl, hm, ?_, ?_, fun q hq => ?_⟩
  · exact Table.get?_set_self s.handles name _
  · show Table.keys (s.document.paths.set key _) = _
    rw [Table.keys_set, if_pos hkey]
  · show (s.document.store ⟨key, m⟩ op).operation? q = _
    rw [Document.operation?_store, if_neg (Ne.symm hq)]

/-- A key under which a session has operations addresses them. -/
theorem Valid.addressedBy (h : s.Valid) (hkey : key ∈ Table.keys s.document.paths) :
    s.AddressedBy key := by
  have hnormal : Template.keyOf key = key := h.document.normal key hkey
  refine ⟨route_of_keyOf_eq_self hnormal, fun name method _ => step_reopen hnormal name method,
    step_register_key hnormal hkey, ?_, fun q => ?_⟩
  · show { s.document with paths := s.document.paths.erase (Template.keyOf key) } = _
    rw [hnormal]
  · show (s.document.removePath key).operation? q = _
    rw [Document.operation?_removePath h.document, hnormal]

end Session

/-- **Keys are templates.**  For any text, the key is its own key and declares the same names; so
texts with one key declare the same names.  In every run, a key of the document addresses just the
operations that stand under it. -/
theorem run_keys_are_templates (title version : String) (steps : List Step) (t : String) :
    Template.keyOf (Template.keyOf t) = Template.keyOf t ∧
      Parameter.namesOf (Template.keyOf t) = Parameter.namesOf t ∧
      (∀ u, Template.keyOf t = Template.keyOf u → Parameter.namesOf t = Parameter.namesOf u) ∧
      ∀ key ∈ Table.keys ((Session.start title version).run steps).document.paths,
        ((Session.start title version).run steps).AddressedBy key := by
  have hvalid := (Session.Valid.start title version).run steps
  refine ⟨Template.keyOf_keyOf t, Parameter.namesOf_keyOf t, fun u hu => ?_, fun key hkey => ?_⟩
  · rw [← Parameter.namesOf_keyOf t, hu, Parameter.namesOf_keyOf u]
  · exact hvalid.addressedBy hkey

/-- A template with a nameless token, nested braces and a stray colon, and its key in a run. -/
theorem keys_are_templates_braces :
    let t := "/a/{:5}/{b{c:1}}:d/{e:f}"
    let s := (Session.start "" "").run [.register "first" t "get" none]
    Template.keyOf t = "/a/{:5}/{b{c}}:d/{e}" ∧
      Parameter.namesOf "/a/{:5}/{b{c}}:d/{e}" = Parameter.namesOf t ∧
      Template.keyOf t ∈ Table.keys s.document.paths ∧ s.AddressedBy (Template.keyOf t) := by
  intro t s
  have hkey : Template.keyOf t = "/a/{:5}/{b{c}}:d/{e}" := by decide
  obtain ⟨-, hnames, -, haddressed⟩ :=
    run_keys_are_templates "" "" [.register "first" t "get" none] t
  have hmem : Template.keyOf t ∈ Table.keys s.document.paths := List.mem_singleton_self _
  exact ⟨hkey, hkey ▸ hnames, hmem, haddressed _ hmem⟩

end ApiOutline
