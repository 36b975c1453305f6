/-
ApiOutline/Proofs/RouteOrder.lean

The routes of a manifest in another order.

Design.  The entries of a manifest are read before anything is entered, so whether a
manifest describes a document does not depend on their order.  What is entered for a route
depends on the registrations of this route, in their order; if that is kept
(`RouteEntry.Reorders`), each route has the same operation.  Only the order in which paths
and methods first arrive can differ, and a document with its paths in another order is
the same map of maps (`Table.SameEntries`, twice).

Main result: `Manifest.build_reordered`.
-/
import ApiOutline.Proofs.Handles
import ApiOutline.Proofs.Registration
import Mathlib.Data.List.Perm.Basic

namespace ApiOutline

/-! ### Tables in another order -/

namespace Table

variable {κ μ α β γ δ : Type}

theorem keys_rename (f : κ → μ) (g : α → β) (t : Table κ α) :
    keys (t.map fun e => (f e.1, g e.2)) = t.keys.map f := by
  simp [keys, Function.comp_def]

variable [DecidableEq μ]

theorem get?_rename_of_ne {f : κ → μ} (g : α → β) (t : Table κ α) {name : μ}
    (hname : ∀ key, f key ≠ name) : get? (t.map fun e => (f e.1, g e.2)) name = none := by
  rw [get?_eq_none_iff, keys_rename, List.mem_map]
  rintro ⟨key, -, hkey⟩
  exact hname key hkey

variable [DecidableEq κ]

/-- Two tables have the same keys, perhaps in another order, with related values. -/
structure SameEntries (R : α → β → Prop) (t : Table κ α) (u : Table κ β) : Prop where
  nodup : t.keys.Nodup
  nodup' : u.keys.Nodup
  values : ∀ key, Option.Rel R (t.get? key) (u.get? key)

/-- Other names for keys and values change nothing. -/
theorem SameEntries.rename {R : α → β → Prop} {S : γ → δ → Prop} {t : Table κ α} {u : Table κ β}
    (h : t.SameEntries R u) {f : κ → μ} (hf : Function.Injective f) {a : α → γ} {b : β → δ}
    (hR : ∀ x y, R x y → S (a x) (b y)) :
    SameEntries S (t.map fun e => (f e.1, a e.2)) (u.map fun e => (f e.1, b e.2)) where
  nodup := by
    rw [keys_rename]
    exact h.nodup.map hf
  nodup' := by
    rw [keys_rename]
    exact h.nodup'.map hf
  values := by
    intro name
    by_cases hname : ∃ key, f key = name
    · obtain ⟨key, rfl⟩ := hname
      rw [get?_rename hf, get?_rename hf]
      have hvalues := h.values key
      generalize get? t key = x at hvalues ⊢
      generalize get? u key = y at hvalues ⊢
      cases hvalues with
      | none => exact .none
      | some hxy => exact .some (hR _ _ hxy)
    · have hne : ∀ key, f key ≠ name := fun key hkey => hname ⟨key, hkey⟩
      rw [get?_rename_of_ne a t hne, get?_rename_of_ne b u hne]
      exact .none

end Table

/-- Two values are objects with the same fields, perhaps in another order, with related values. -/
def Json.SameFields (R : Json → Json → Prop) (j k : Json) : Prop :=
  ∃ fields fields', j = .object fields ∧ k = .object fields' ∧ Table.SameEntries R fields fields'

namespace Document

variable {doc doc' : Document}

/-- Documents whose routes have the same operations have the same paths. -/
theorem sameEntries_paths (h : doc.Valid) (h' : doc'.Valid)
    (hsame : ∀ r, doc.operation? r = doc'.operation? r) :
    doc.paths.SameEntries (Table.SameEntries Eq) doc'.paths where
  nodup := h.nodup
  nodup' := h'.nodup
  values := by
    intro key
    -- a path that one of them has is not empty, and so the other has it
    have hnone : ∀ {d d' : Document}, d'.Valid → (∀ r, d.operation? r = d'.operation? r) →
        Table.get? d.paths key = none → Table.get? d'.paths key = none := by
      intro d d' hd' hoperations hget
      rcases hget' : Table.get? d'.paths key with - | ops
      · rfl
      obtain ⟨hnonempty, -, -⟩ := hd'.paths _ (Table.mem_of_get?_eq_some hget')
      obtain ⟨⟨m, op⟩, ops, rfl⟩ := List.exists_cons_of_ne_nil hnonempty
      have hop := hoperations ⟨key, m⟩
      rw [operation?, operation?, path, path, hget, hget'] at hop
      simp [Table.get?] at hop
    rcases hget : Table.get? doc.paths key with - | ops
    · rw [hnone h' hsame hget]
      exact .none
    rcases hget' : Table.get? doc'.paths key with - | ops'
    · rw [hnone h (fun r => (hsame r).symm) hget'] at hget
      cases hget
    refine .some ⟨(h.paths _ (Table.mem_of_get?_eq_some hget)).nodup,
      (h'.paths _ (Table.mem_of_get?_eq_some hget')).nodup, fun m => ?_⟩
    have hop := hsame ⟨key, m⟩
    rw [operation?, operation?, path, path, hget, hget', Option.getD_some, Option.getD_some] at hop
    rw [hop]
    rcases Table.get? ops' m with - | op
    · exact .none
    · exact .some rfl

/-- Two written documents differ in the order of paths, and of methods under a path, only. -/
def SamePaths (j k : Json) : Prop :=
  ∃ paths paths', j.get? "paths" = some paths ∧ j.put? "paths" paths' = some k ∧
    paths.SameFields (Json.SameFields Eq) paths'

/-- The written paths are the paths. -/
theorem samePaths_toJson {paths : Table String (Table Method Operation)}
    (h : doc.paths.SameEntries (Table.SameEntries Eq) paths) (title version : Option String) :
    SamePaths (doc.toJson title version) ({ doc with paths }.toJson title version) := by
  have hnames : Function.Injective Method.name := fun _ _ => Method.name_injective
  refine ⟨_, _, rfl, rfl, _, _, rfl, rfl, ?_⟩
  have hpaths : ∀ ops ops' : Table Method Operation, ops.SameEntries Eq ops' →
      (pathJson ops).SameFields Eq (pathJson ops') := fun ops ops' hops =>
    ⟨_, _, rfl, rfl, hops.rename hnames fun op op' => congrArg Operation.toJson⟩
  exact h.rename (f := id) Function.injective_id hpaths

/-- Registrations change the paths, and nothing else. -/
theorem foldl_enter_eq (doc : Document) (gs : List Registration) :
    gs.foldl enter doc = { doc with paths := (gs.foldl enter doc).paths } := by
  induction gs generalizing doc with
  | nil => rfl
  | cons g gs ih => exact ih (doc.enter g)

end Document

/-! ### Entries in another order -/

/-- All of a list is read if each item is. -/
theorem mapM_eq_ok_iff {ε α β : Type} {f : α → Except ε β} {as : List α} {bs : List β} :
    as.mapM f = .ok bs ↔ List.Forall₂ (fun a b => f a = .ok b) as bs := by
  induction as generalizing bs with
  | nil =>
    rw [List.mapM_nil, List.forall₂_nil_left_iff]
    exact ⟨fun h => (Except.ok.inj h).symm, fun h => congrArg Except.ok h.symm⟩
  | cons a as ih =>
    rw [List.mapM_cons, List.forall₂_cons_left_iff]
    constructor
    · intro h
      obtain ⟨b, hb, h⟩ := bind_eq_ok_iff.mp h
      obtain ⟨bs', hbs, h⟩ := bind_eq_ok_iff.mp h
      exact ⟨b, bs', hb, ih.mp hbs, (Except.ok.inj h).symm⟩
    · rintro ⟨b, bs', hb, hbs, rfl⟩
      rw [hb, ih.mpr hbs]
      rfl

/-- A method is read from its name, in letters of either case. -/
theorem Method.name_of_read {name : String} {m : Method} (hm : Method.read name = .ok m) :
    String.ofList (Text.lowerCase name.toList) = m.name := by
  rw [read] at hm
  split at hm
  · rename_i n hn
    cases hm
    exact (name_of_named? hn).symm
  · cases hm

namespace RouteEntry

/-- What an entry is for: the key of its path, and its method in small letters. -/
def slot (e : RouteEntry) : String × String :=
  (Template.keyOf e.path, String.ofList (Text.lowerCase e.method.toList))

/-- The entries in another order, but with those for one path and method in the order that they
had. -/
structure Reorders (es es' : List RouteEntry) : Prop where
  perm : es.Perm es'
  order : ∀ slot, es.filter (fun e => e.slot = slot) = es'.filter (fun e => e.slot = slot)

/-- The entries of a route are those that are read to its registrations. -/
theorem slot_eq_iff {e : RouteEntry} {g : Registration} (hg : e.read = .ok g) (r : Route) :
    e.slot = (r.key, r.method.name) ↔ g.route = r := by
  obtain ⟨m, hm, hg⟩ := bind_eq_ok_iff.mp hg
  obtain ⟨change, -, hg⟩ := bind_eq_ok_iff.mp hg
  obtain rfl := Except.ok.inj hg
  rw [slot, Method.name_of_read hm, Prod.mk.injEq]
  obtain ⟨key, m'⟩ := r
  show _ ↔ Route.mk _ m = ⟨key, m'⟩
  rw [Route.mk.injEq]
  exact and_congr_right fun _ => ⟨fun h => Method.name_injective h, congrArg Method.name⟩

/-- The registrations of a route are read from its entries. -/
theorem mapM_read_filter {es : List RouteEntry} {gs : List Registration}
    (h : es.mapM read = .ok gs) (r : Route) :
    (es.filter fun e => e.slot = (r.key, r.method.name)).mapM read =
      .ok (gs.filter fun g => g.route = r) := by
  refine mapM_eq_ok_iff.mpr (List.rel_filter ?_ (mapM_eq_ok_iff.mp h))
  intro e g hg
  simpa using slot_eq_iff hg r

/-- The registrations of a route do not depend on the order of the entries of others. -/
theorem Reorders.registrations {es es' : List RouteEntry} (h : Reorders es es')
    {gs gs' : List Registration} (hgs : es.mapM read = .ok gs) (hgs' : es'.mapM read = .ok gs')
    (r : Route) : gs.filter (fun g => g.route = r) = gs'.filter (fun g => g.route = r) := by
  have hleft := mapM_read_filter hgs r
  rw [h.order, mapM_read_filter hgs' r] at hleft
  exact (Except.ok.inj hleft).symm

/-- Entries that can all be read can be read in any order. -/
theorem exists_mapM_of_perm {es es' : List RouteEntry} (h : es.Perm es')
    (hread : ∃ gs, es.mapM read = .ok gs) : ∃ gs, es'.mapM read = .ok gs := by
  obtain ⟨gs, hgs⟩ := hread
  obtain ⟨gs', hgs', -⟩ := List.perm_comp_forall₂ h.symm (mapM_eq_ok_iff.mp hgs)
  exact ⟨gs', mapM_eq_ok_iff.mpr hgs'⟩

end RouteEntry

/-! ### Manifests -/

namespace Document.Valid

variable {doc doc' : Document}

theorem of_paths_eq_nil (h : doc.paths = []) : doc.Valid where
  normal := by simp [h]
  nodup := by simp [h]
  paths := by simp [h]

theorem addRoutes (h : doc.Valid) {es : List RouteEntry}
    (hr : (Manifest.addRoutes doc es).result = .ok doc') : doc'.Valid := by
  induction es generalizing doc with
  | nil =>
    obtain rfl := Except.ok.inj hr
    exact h
  | cons e es ih =>
    obtain ⟨m, -, hr⟩ := Traced.result_bind_eq_ok_iff.mp hr
    obtain ⟨next, hnext, hr⟩ := Traced.result_bind_eq_ok_iff.mp hr
    obtain ⟨op, hop, rfl⟩ := h.register hnext
    have hkey : Template.keyOf (Route.of e.path m).key = (Route.of e.path m).key :=
      Template.keyOf_keyOf e.path
    have hvalid := h.store hkey hop
    exact ih hvalid hr

end Document.Valid

namespace Manifest

/-- A document has no paths before its routes are registered. -/
theorem paths_frame (m : Manifest) : m.frame.paths = [] := by
  have hfold : ∀ (es : List (String × SecurityScheme)) (doc : Document), (es.foldl
      (fun doc e => doc.addComponent e.1 (.securityScheme e.2)) doc).paths = doc.paths := by
    intro es
    induction es with
    | nil => exact fun doc => rfl
    | cons e es ih => exact fun doc => ih (doc.addComponent e.1 (.securityScheme e.2))
  exact hfold m.security _

theorem paths_addSchemas {doc doc' : Document} {es : List (String × String)}
    (h : (addSchemas doc es).result = .ok doc') : doc'.paths = doc.paths := by
  induction es generalizing doc with
  | nil =>
    obtain rfl := Except.ok.inj h
    rfl
  | cons e es ih =>
    obtain ⟨next, hnext, h⟩ := Traced.result_bind_eq_ok_iff.mp h
    obtain ⟨schema, -, hnext⟩ := Traced.result_bind_eq_ok_iff.mp hnext
    obtain rfl := Except.ok.inj hnext
    have hpaths : doc'.paths = (doc.addComponent e.1 (.schema schema)).paths := ih h
    exact hpaths

/-- A manifest describes a document if its schemas do and all its routes are read. -/
theorem build_eq_ok_iff {m : Manifest} {doc : Document} :
    m.build.result = .ok doc ↔
      ∃ base gs, (addSchemas m.frame m.schemas).result = .ok base ∧
        m.routes.mapM RouteEntry.read = .ok gs ∧ gs.foldl Document.enter base = doc := by
  rw [build, Traced.result_bind_eq_ok_iff]
  refine exists_congr fun base => ?_
  rw [exists_and_left, result_addRoutes]
  refine and_congr_right fun _ => ?_
  rcases m.routes.mapM RouteEntry.read with f | gs
  · exact ⟨fun h => (by cases h), fun ⟨_, h, _⟩ => (by cases h)⟩
  · exact ⟨fun h => ⟨gs, rfl, Except.ok.inj h⟩, fun ⟨_, h, hdoc⟩ => by cases h; rw [← hdoc]; rfl⟩

theorem valid_build {m : Manifest} {doc : Document} (h : m.build.result = .ok doc) : doc.Valid := by
  obtain ⟨base, hbase, hdoc⟩ := Traced.result_bind_eq_ok_iff.mp h
  have hpaths : base.paths = [] := (paths_addSchemas hbase).trans m.paths_frame
  exact (Document.Valid.of_paths_eq_nil hpaths).addRoutes hdoc

/-- Two manifests describe the same document, but for the order of paths and methods. -/
structure SameBuild (m m' : Manifest) : Prop where
  succeeds : (∃ doc, m.build.result = .ok doc) ↔ ∃ doc, m'.build.result = .ok doc
  written : ∀ doc doc', m.build.result = .ok doc → m'.build.result = .ok doc' →
    ∀ title version, Document.SamePaths (doc.toJson title version) (doc'.toJson title version)

/-- **The order of routes.**  A manifest describes a document exactly if it does so with its routes
in another order that keeps those for one path and method in theirs; and then the written documents
are the same, but for the order of paths, and of methods under a path. -/
theorem build_reordered (m : Manifest) {routes : List RouteEntry}
    (h : RouteEntry.Reorders m.routes routes) : m.SameBuild { m with routes } where
  succeeds := by
    simp only [build_eq_ok_iff]
    constructor
    · rintro ⟨-, base, gs, hbase, hgs, -⟩
      obtain ⟨gs', hgs'⟩ := RouteEntry.exists_mapM_of_perm h.perm ⟨gs, hgs⟩
      exact ⟨_, base, gs', hbase, hgs', rfl⟩
    · rintro ⟨-, base, gs, hbase, hgs, -⟩
      obtain ⟨gs', hgs'⟩ := RouteEntry.exists_mapM_of_perm h.perm.symm ⟨gs, hgs⟩
      exact ⟨_, base, gs', hbase, hgs', rfl⟩
  written := by
    intro doc doc' hdoc hdoc' title version
    have hvalid := valid_build hdoc
    have hvalid' := valid_build hdoc'
    obtain ⟨base, gs, hbase, hgs, rfl⟩ := build_eq_ok_iff.mp hdoc
    obtain ⟨base', gs', hbase', hgs', rfl⟩ := build_eq_ok_iff.mp hdoc'
    obtain rfl : base = base' := Except.ok.inj (hbase.symm.trans hbase')
    have hoperations : ∀ r, (gs.foldl Document.enter base).operation? r =
        (gs'.foldl Document.enter base).operation? r := by
      intro r
      rw [Document.operation?_foldl_enter, Document.operation?_foldl_enter,
        h.registrations hgs hgs' r]
    have hpaths := Document.sameEntries_paths hvalid hvalid' hoperations
    have hwritten := Document.samePaths_toJson hpaths title version
    -- all but the paths is as it was before the routes
    rw [Document.foldl_enter_eq base gs] at hwritten ⊢
    rw [Document.foldl_enter_eq base gs']
    exact hwritten

/-- A route with two entries, between which the entry of another one is moved. -/
theorem build_reordered_pets :
    let first : RouteEntry := ⟨{ summary := some "Get a pet" }, "/pets/{id:1}", "get"⟩
    let second : RouteEntry := ⟨{ desc := some "by number" }, "/pets/{id}", "GET"⟩
    let last : RouteEntry := ⟨{}, "/pets", "get"⟩
    let m : Manifest := { routes := [first, second, last] }
    (∃ doc, m.build.result = .ok doc) ∧ RouteEntry.Reorders m.routes [first, last, second] ∧
      m.SameBuild { m with routes := [first, last, second] } := by
  intro first second last m
  have hfirst : first.slot = ("/pets/{id}", "get") := by decide
  have hsecond : second.slot = ("/pets/{id}", "get") := by decide
  have hlast : last.slot = ("/pets", "get") := by decide
  have hreorders : RouteEntry.Reorders m.routes [first, last, second] := by
    refine ⟨.cons _ (.swap ..), fun slot => ?_⟩
    show [first, second, last].filter (fun e => e.slot = slot) =
      [first, last, second].filter (fun e => e.slot = slot)
    by_cases hslot : ("/pets", "get") = slot
    · have hother : ("/pets/{id}", "get") ≠ slot := by
        rw [← hslot]
        decide
      simp [hfirst, hsecond, hlast, hslot, hother]
    · simp [List.filter_cons, hfirst, hsecond, hlast, hslot]
  have hbuild : ∃ doc, m.build.result = .ok doc := by
    have hok : m.build.result.isOk = true := by decide
    rcases hresult : m.build.result with f | doc
    · rw [hresult] at hok
      cases hok
    · exact ⟨doc, rfl⟩
  exact ⟨hbuild, hreorders, build_reordered m hreorders⟩

end Manifest

end ApiOutline
