/-
ApiOutline/Proofs/FiniteExamples.lean

Infinities and `nan` in a document.

Design.  Of the three ways to declare a parameter two guard its example: a path gives text,
and a shorthand gives text where the default is no finite number.  A definition gives any
number, as it stands in the manifest.  Such an example comes to the document if no later
declaration for the same route takes the slot of the parameter (`Declaration.Leaks`); what a
list of declarations leaves in the end is said by `Parameter.lasting`.

Main results: a manifest describes a document that can be written as standard JSON exactly if
no example leaks (`Manifest.build_finite_iff`), and one whose example does
(`Manifest.build_writes_nan`).
-/
import ApiOutline.Proofs.Acceptance
import ApiOutline.Proofs.Declaration
import ApiOutline.Proofs.Demands
import ApiOutline.Proofs.FiniteParts
import ApiOutline.Proofs.JsonPrinting

namespace ApiOutline

/-! ### Finite parameters -/

namespace Parameter

/-- Declarations leave finite examples if those that are not replaced are finite. -/
theorem all_isFinite_foldl_declare {ps : List Parameter} (h : ∀ p ∈ ps, p.isFinite = true)
    (qs : List Parameter) :
    (∀ p ∈ qs.foldl declare ps, p.isFinite = true) ↔ ∀ p ∈ lasting qs, p.isFinite = true := by
  rw [foldl_declare_eq]
  constructor
  · exact fun hall p hp => hall p (List.mem_append_right _ hp)
  · intro hall p hp
    rcases List.mem_append.mp hp with hp | hp
    · exact h p (List.mem_of_mem_filter hp)
    · exact hall p hp

theorem isFinite_ofTemplate (template : String) :
    ∀ p ∈ ofTemplate template, p.isFinite = true := by
  intro p hp
  obtain ⟨s, -, rfl⟩ := List.mem_map.mp hp
  rw [isFinite, ofSlot]
  dsimp only
  split <;> rfl

/-- What a default gives is finite. -/
theorem isFinite_exampleOf (type : TypeName) (default : List Char) :
    (exampleOf type default).all Scalar.isFinite = true := by
  rw [exampleOf]
  split
  · rfl
  · rename_i hne
    rcases hread : Default.read type default with f | v
    · rfl
    · exact (Shape.fits_of_read hne hread).isFinite

end Parameter

/-! ### Declarations -/

/-- Each item of a list that is related to another is related to an item of it. -/
theorem exists_of_forall₂ {α β : Type} {R : α → β → Prop} {as : List α} {bs : List β}
    (h : List.Forall₂ R as bs) {a : α} (ha : a ∈ as) : ∃ b ∈ bs, R a b := by
  induction h with
  | nil => cases ha
  | cons hab hrest ih =>
    rcases List.mem_cons.mp ha with rfl | ha
    · exact ⟨_, List.mem_cons_self, hab⟩
    · obtain ⟨b, hb, hr⟩ := ih ha
      exact ⟨b, List.mem_cons_of_mem _ hb, hr⟩

/-- A declaration of a parameter, and the location that it is made for. -/
structure Declaration where
  location : String
  data : Data

namespace Declaration

/-- The parameter that is declared. -/
def read (d : Declaration) : Except Fault Parameter := Parameter.ofDeclaration d.location d.data

/-- The declaration is a definition whose example is an infinity or `nan`; what its schema says
goes first. -/
def Overflows (d : Declaration) : Prop :=
  ∃ es schema x, d.data = .map es ∧ Parameter.fieldOr es "schema" (.map []) = .map schema ∧
    Parameter.fieldOr schema "example" (Parameter.fieldOr es "example" .null) = .float x ∧
      x.isFinite = false

/-- Both declare a parameter of one name in one location. -/
def SameSlot (d e : Declaration) : Prop :=
  ∃ p q, d.read = .ok p ∧ e.read = .ok q ∧ p.slot = q.slot

/-- One of the declarations gives an example that is an infinity or `nan`, and none after it
declares the parameter again. -/
def Leaks : List Declaration → Prop
  | [] => False
  | d :: ds => (d.Overflows ∧ ∀ e ∈ ds, ¬ d.SameSlot e) ∨ Leaks ds

/-- A scalar is taken over as it is. -/
theorem isFinite_of_scalar {v : Data} {e : Option Scalar} (h : Checked.scalar v = .accepted e) :
    e.all Scalar.isFinite = false ↔ ∃ x, v = .float x ∧ x.isFinite = false := by
  unfold Checked.scalar at h
  split at h
  · obtain rfl := Checked.accepted.inj h
    simp
  · obtain rfl := Checked.accepted.inj h
    simp [Scalar.isFinite]
  · obtain rfl := Checked.accepted.inj h
    simp [Scalar.isFinite]
  · obtain rfl := Checked.accepted.inj h
    simp [Scalar.isFinite]
  · rename_i hnull hinteger hfloat hboolean
    split at h
    · obtain rfl := Checked.accepted.inj h
      constructor
      · intro hfalse
        cases hfalse
      · rintro ⟨x, rfl, -⟩
        exact absurd rfl (hfloat x)
    · cases h

/-- The example of a parameter is what its draft gives. -/
theorem scalar_of_check {d : Parameter.Draft} {p : Parameter} (h : d.check = .accepted p) :
    Checked.scalar d.example? = .accepted p.example? := by
  obtain ⟨f, e, hf, he, rfl⟩ := Checked.seq_eq_accepted_iff.mp h
  rw [Checked.given, Checked.inside_eq_accepted_iff] at he
  obtain ⟨_, description, h₄, -, rfl⟩ := Checked.seq_eq_accepted_iff.mp hf
  obtain ⟨_, type, h₃, -, rfl⟩ := Checked.seq_eq_accepted_iff.mp h₄
  obtain ⟨_, required, h₂, -, rfl⟩ := Checked.seq_eq_accepted_iff.mp h₃
  obtain ⟨_, location, h₁, -, rfl⟩ := Checked.seq_eq_accepted_iff.mp h₂
  obtain ⟨name, -, rfl⟩ := Checked.map_eq_accepted_iff.mp h₁
  exact he

/-- Only a definition declares a parameter whose example is not finite. -/
theorem isFinite_of_read {d : Declaration} {p : Parameter} (h : d.read = .ok p) :
    p.isFinite = false ↔ d.Overflows := by
  obtain ⟨location, data⟩ := d
  cases data with
  | text s =>
    obtain rfl := Except.ok.inj h
    have hfinite : (Parameter.ofShorthand location s).isFinite = true :=
      Parameter.isFinite_exampleOf _ _
    rw [hfinite]
    constructor
    · intro hfalse
      cases hfalse
    · rintro ⟨es, schema, x, hmap, -⟩
      cases hmap
  | map es =>
    have hdefinition : Parameter.ofDefinition location es = .ok p := h
    rw [Parameter.ofDefinition] at hdefinition
    split at hdefinition
    · rename_i schema hschema
      have hcheck : (Parameter.Draft.ofDefinition location es schema).check = .accepted p := by
        rcases hc : (Parameter.Draft.ofDefinition location es schema).check with q | places
        · rw [hc] at hdefinition
          rw [Except.ok.inj hdefinition]
        · rw [hc] at hdefinition
          cases hdefinition
      rw [Parameter.isFinite, isFinite_of_scalar (scalar_of_check hcheck)]
      constructor
      · rintro ⟨x, hx, hfinite⟩
        exact ⟨es, schema, x, rfl, hschema, hx, hfinite⟩
      · rintro ⟨es', schema', x, hmap, hschema', hx, hfinite⟩
        obtain rfl := Data.map.inj hmap
        rw [hschema] at hschema'
        obtain rfl := Data.map.inj hschema'
        exact ⟨x, hx, hfinite⟩
    · cases hdefinition
  | _ => cases h

/-- Declarations leak if a parameter that they leave has an example that is not finite. -/
theorem leaks_iff {ds : List Declaration} {ps : List Parameter}
    (h : List.Forall₂ (fun d p => d.read = .ok p) ds ps) :
    Leaks ds ↔ ∃ p ∈ Parameter.lasting ps, p.isFinite = false := by
  induction h with
  | nil => simp [Leaks, Parameter.lasting]
  | @cons d p ds ps hd hrest ih =>
    -- a later declaration of the parameter is a later parameter with its slot
    have hslot : (∀ e ∈ ds, ¬ d.SameSlot e) ↔ p.slot ∉ ps.map Parameter.slot := by
      rw [List.mem_map]
      constructor
      · rintro hfree ⟨q, hq, hslot⟩
        obtain ⟨e, he, hread⟩ := exists_of_forall₂ (List.Forall₂.flip hrest) hq
        exact hfree e he ⟨p, q, hd, hread, hslot.symm⟩
      · rintro hfree e he ⟨p', q, hp', hq, hslot⟩
        obtain ⟨q', hmem, hread⟩ := exists_of_forall₂ hrest he
        obtain rfl : p = p' := Except.ok.inj (hd.symm.trans hp')
        obtain rfl : q = q' := Except.ok.inj (hq.symm.trans hread)
        exact hfree ⟨q, hmem, hslot.symm⟩
    rw [Leaks, ih, hslot, ← isFinite_of_read hd, Parameter.lasting]
    split
    · rename_i hagain
      simp only [hagain, not_true_eq_false, and_false, false_or]
    · rename_i hlast
      simp only [hlast, not_false_eq_true, and_true, List.exists_mem_cons_iff]

end Declaration

/-! ### Entries of a route -/

/-- The declarations that an edit makes. -/
def Edit.declarations : Edit → List Declaration
  | .declare location ds => ds.map fun d => ⟨location, d⟩
  | _ => []

theorem Parameter.ofDeclarations_eq_mapM (location : String) (ds : List Data) :
    ofDeclarations location ds = ds.mapM (ofDeclaration location) := by
  induction ds with
  | nil => rfl
  | cons d ds ih => rw [ofDeclarations, List.mapM_cons, ih]

/-- What edits that can be read declare. -/
theorem Edit.forall₂_declared {es : List Edit} {f : Operation → Operation}
    (h : readAll es = .ok f) :
    List.Forall₂ (fun d p => d.read = .ok p) (es.flatMap declarations) (es.flatMap declared) := by
  induction es generalizing f with
  | nil => exact .nil
  | cons e es ih =>
    obtain ⟨g, he, h⟩ := bind_eq_ok_iff.mp h
    obtain ⟨g', hrest, -⟩ := bind_eq_ok_iff.mp h
    rw [List.flatMap_cons, List.flatMap_cons]
    refine List.rel_append ?_ (ih hrest)
    cases e with
    | declare location ds =>
      rw [declarations, declared]
      rcases hps : Parameter.ofDeclarations location ds with fault | ps
      · rw [read, hps] at he
        cases he
      · rw [Parameter.ofDeclarations_eq_mapM, mapM_eq_ok_iff] at hps
        exact List.forall₂_map_left_iff.mpr hps
    | _ => exact .nil

namespace RouteEntry

/-- The declarations that the entry of a route makes. -/
def declarations (e : RouteEntry) : List Declaration := e.options.edits.flatMap Edit.declarations

/-- The parameters that the entry of a route declares. -/
def declared (e : RouteEntry) : List Parameter := e.options.edits.flatMap Edit.declared

theorem change_of_read {e : RouteEntry} {g : Registration} (h : e.read = .ok g) :
    ∃ f, Edit.readAll e.options.edits = .ok f ∧ g.change = f ∧
      g.opening = Operation.ofTemplate e.path := by
  obtain ⟨m, -, h⟩ := bind_eq_ok_iff.mp h
  obtain ⟨f, hf, h⟩ := bind_eq_ok_iff.mp h
  obtain rfl := Except.ok.inj h
  exact ⟨f, hf, rfl, rfl⟩

theorem forall₂_declared {es : List RouteEntry} {gs : List Registration}
    (h : es.mapM read = .ok gs) :
    List.Forall₂ (fun d p => d.read = .ok p) (es.flatMap declarations) (es.flatMap declared) := by
  rw [mapM_eq_ok_iff] at h
  induction h with
  | nil => exact .nil
  | @cons e g es gs hg hrest ih =>
    obtain ⟨f, hf, -⟩ := change_of_read hg
    rw [List.flatMap_cons, List.flatMap_cons]
    exact List.rel_append (Edit.forall₂_declared hf) ih

/-- Registrations of a route leave an operation in which all their parameters are declared. -/
theorem parameters_foldl {es : List RouteEntry} {gs : List Registration}
    (h : es.mapM read = .ok gs) (op : Operation) :
    ∃ op', gs.foldl (fun op g => some (g.change (op.getD g.opening))) (some op) = some op' ∧
      op'.parameters = (es.flatMap declared).foldl Parameter.declare op.parameters := by
  rw [mapM_eq_ok_iff] at h
  induction h generalizing op with
  | nil => exact ⟨op, rfl, rfl⟩
  | @cons e g es gs hg hrest ih =>
    obtain ⟨f, hf, hchange, -⟩ := change_of_read hg
    obtain ⟨op', hop', hparameters⟩ := ih (g.change op)
    have hfirst : (g.change op).parameters = e.declared.foldl Parameter.declare op.parameters := by
      have hedit : (op.editAll e.options.edits).result = .ok (g.change op) := by
        rw [Operation.result_editAll_read, hf, hchange]
        rfl
      exact Operation.parameters_editAll hedit
    refine ⟨op', hop', ?_⟩
    rw [hparameters, hfirst, List.flatMap_cons, List.foldl_append]

end RouteEntry

/-! ### Manifests -/

namespace Manifest

/-- The entries of a route. -/
def entries (m : Manifest) (r : Route) : List RouteEntry :=
  m.routes.filter fun e => e.slot = (r.key, r.method.name)

/-- The declarations of parameters that a manifest makes for a route, in their order. -/
def declarations (m : Manifest) (r : Route) : List Declaration :=
  (m.entries r).flatMap RouteEntry.declarations

/-- The declarations of some route leak. -/
def Leaks (m : Manifest) : Prop := ∃ r, Declaration.Leaks (m.declarations r)

/-- What a route comes to is a matter of its own entries. -/
theorem operation?_build {m : Manifest} {doc : Document} (h : m.build.result = .ok doc)
    (r : Route) :
    ∃ gs, (m.entries r).mapM RouteEntry.read = .ok gs ∧
      doc.operation? r = gs.foldl (fun op g => some (g.change (op.getD g.opening))) none := by
  obtain ⟨base, gs, hbase, hgs, rfl⟩ := build_eq_ok_iff.mp h
  have hnone : base.operation? r = none := by
    rw [Document.operation?, Document.path, (paths_addSchemas hbase).trans m.paths_frame]
    rfl
  refine ⟨_, RouteEntry.mapM_read_filter hgs r, ?_⟩
  rw [Document.operation?_foldl_enter, hnone]

/-- A route with entries has the parameters of its template, and then those that are declared. -/
theorem parameters_build {m : Manifest} {doc : Document} (h : m.build.result = .ok doc)
    {r : Route} {e : RouteEntry} {es : List RouteEntry} (hes : m.entries r = e :: es) :
    ∃ op, doc.operation? r = some op ∧
      op.parameters = ((m.entries r).flatMap RouteEntry.declared).foldl Parameter.declare
        (Parameter.ofTemplate e.path) := by
  obtain ⟨gs, hentries, hop⟩ := operation?_build h r
  rw [hes] at hentries ⊢
  obtain ⟨g, rest, hg, -, rfl⟩ := List.forall₂_cons_left_iff.mp (mapM_eq_ok_iff.mp hentries)
  obtain ⟨f, -, -, hopening⟩ := RouteEntry.change_of_read hg
  obtain ⟨op, hrun, hparameters⟩ := RouteEntry.parameters_foldl hentries g.opening
  -- the first registration opens the operation
  refine ⟨op, hop.trans hrun, ?_⟩
  rw [hparameters, hopening]
  rfl

/-- A route whose declarations do not leak has parameters with finite examples. -/
theorem finite_operation_iff {m : Manifest} {doc : Document} (h : m.build.result = .ok doc)
    (r : Route) :
    (∀ op, doc.operation? r = some op → ∀ p ∈ op.parameters, p.isFinite = true) ↔
      ¬ Declaration.Leaks (m.declarations r) := by
  obtain ⟨gs, hentries, hop⟩ := operation?_build h r
  have hleaks := Declaration.leaks_iff (RouteEntry.forall₂_declared hentries)
  rw [declarations, hleaks]
  rcases hes : m.entries r with - | ⟨e, es⟩
  · -- without entries there is no operation
    rw [hes] at hentries
    rw [hop, ← Except.ok.inj hentries]
    simp [Parameter.lasting]
  · obtain ⟨op, hop, hparameters⟩ := parameters_build h hes
    have hfinite := Parameter.all_isFinite_foldl_declare (Parameter.isFinite_ofTemplate e.path)
      ((m.entries r).flatMap RouteEntry.declared)
    rw [← hparameters, hes] at hfinite
    simp only [hop, Option.some.injEq, forall_eq', hfinite, not_exists, not_and,
      Bool.not_eq_false]

/-- What is written in JSON is the document. -/
theorem writing_json {disk : Command.Disk} {target : Command.FilePath} {doc : Json} {text : String}
    (h : Command.writing disk target doc .json = .ok text) : text = doc.render .indented := by
  rw [Command.writing] at h
  rcases hparent : Command.parentObstacle? disk target with - | b
  · rcases hdump : Command.dump? doc .json with - | written
    · rw [hparent, hdump] at h
      cases h
    · rcases hfile : Command.fileObstacle? disk target with - | b
      · rw [hparent, hdump, hfile] at h
        obtain rfl := Except.ok.inj h
        rw [Command.dump?, Json.render?] at hdump
        split at hdump
        · exact (Option.some.inj hdump).symm
        · cases hdump
      · rw [hparent, hdump, hfile] at h
        cases h
  · rw [hparent] at h
    cases h

/-- What the program writes to a file in JSON is the document. -/
theorem written_runBuild {disk : Command.Disk} {path text output : String} {verbose : Bool}
    {title version : Option String} {format : Option Command.Format} {doc : Document}
    (hfile : Command.find disk path = .file text) (hload : (load (some text)).result = .ok doc)
    (hformat : format.getD (Command.formatOf (Command.FilePath.ofText output)) = .json)
    {w : Command.FilePath × String}
    (hw : (Command.runBuild disk verbose path output title version format).written = some w) :
    w.2 = (doc.toJson title version).render .indented := by
  rw [Command.runBuild, hfile] at hw
  dsimp only at hw
  rw [hload, hformat] at hw
  dsimp only at hw
  rcases hwriting : Command.writing disk (Command.FilePath.ofText output)
    (doc.toJson title version) .json with b | written
  · rw [hwriting] at hw
    cases hw
  · rw [hwriting] at hw
    obtain rfl := Option.some.inj hw
    exact writing_json hwriting

/-- **Finite numbers.**  The document of an accepted manifest is free of infinities and `nan`
exactly if no example of a definition leaks; and what the program writes for it in JSON is then
standard JSON, and else it is not. -/
theorem build_finite_iff {v : Data} {m : Manifest} (h : check v = .accepted m) {doc : Document}
    (hdoc : m.build.result = .ok doc) :
    (∀ title version, (doc.toJson title version).isFinite = true ↔ ¬ m.Leaks) ∧
      ∀ disk verbose path output title version format text w,
        Command.find disk path = .file text → readText text = .ok v →
          format.getD (Command.formatOf (Command.FilePath.ofText output)) = .json →
            (Command.runBuild disk verbose path output title version format).written = some w →
              (Json.IsText w.2.toList ↔ ¬ m.Leaks) := by
  have hfinite : ∀ title version, (doc.toJson title version).isFinite = true ↔ ¬ m.Leaks := by
    intro title version
    rw [Document.isFinite_toJson_iff (valid_build hdoc) (fit_build hdoc), Leaks, not_exists]
    exact forall_congr' (finite_operation_iff hdoc)
  refine ⟨hfinite, ?_⟩
  intro disk verbose path output title version format text w hfile hread hformat hw
  have hload := result_load_eq_ok_iff.mpr ⟨v, m, hread, h, hdoc⟩
  rw [written_runBuild hfile hload hformat hw, Json.isText_render_iff]
  exact hfinite title version

/-- The schema of a parameter gives an infinity, but the parameter is declared again: what the
program writes is standard JSON. -/
theorem build_finite_redeclared :
    let text := "routes:\n- path: /pets\n  query:\n  - name: page\n    schema:\n" ++
      "      example: -.inf\n  - page:?b:1\n"
    let disk : Command.Disk := fun p =>
      if p = .ofText "." then .directory
      else if p = .ofText "api.yaml" then .file text
      else .missing
    ∃ v m doc w, readText text = .ok v ∧ check v = .accepted m ∧ m.build.result = .ok doc ∧
      ¬ m.Leaks ∧ (doc.toJson none none).isFinite = true ∧
        (Command.runBuild disk false "api.yaml" "api.json" none none none).written = some w ∧
          Json.IsText w.2.toList := by
  intro text disk
  have hload : (load (some text)).result.map (fun doc => (doc.toJson none none).isFinite) =
      .ok true := by decide +kernel
  have hfile : Command.find disk "api.yaml" = .file text := by decide +kernel
  have hwritten : (Command.runBuild disk false "api.yaml" "api.json" none none none).written.isSome
      = true := by decide +kernel
  rcases hdoc : (load (some text)).result with f | doc
  · rw [hdoc] at hload
    cases hload
  rw [hdoc] at hload
  have hfinite : (doc.toJson none none).isFinite = true := Except.ok.inj hload
  obtain ⟨v, m, hread, hcheck, hbuild⟩ := result_load_eq_ok_iff.mp hdoc
  obtain ⟨w, hw⟩ := Option.isSome_iff_exists.mp hwritten
  obtain ⟨hiff, hrun⟩ := build_finite_iff hcheck hbuild
  have hleaks : ¬ m.Leaks := (hiff none none).mp hfinite
  have htext : Json.IsText w.2.toList :=
    (hrun disk false "api.yaml" "api.json" none none none text w hfile hread rfl hw).mpr hleaks
  exact ⟨v, m, doc, w, hread, hcheck, hbuild, hleaks, hfinite, hw, htext⟩

/-- A parameter whose example is `nan`: the document has it, and its text is not JSON. -/
theorem build_writes_nan :
    let v : Data := .map [(.text "routes", .list [.map [(.text "path", .text "/pets"),
      (.text "query", .list [.map [(.text "name", .text "page"),
        (.text "example", .float .nan)]])]])]
    let query : Data := .list [.map [(.text "name", .text "page"), (.text "example", .float .nan)]]
    let m : Manifest := { routes := [⟨{ query := some query }, "/pets", "get"⟩] }
    let doc : Document := { paths := [("/pets", [(.get,
      { parameters := [⟨"page", "query", false, "string", "", some (.float .nan)⟩] })])] }
    check v = .accepted m ∧ m.build.result = .ok doc ∧
      (doc.toJson none none).isFinite = false ∧
        ¬ Json.IsText ((doc.toJson none none).render .indented).toList := by
  intro v query m doc
  have hcheck : check v = .accepted m := rfl
  have hdoc : m.build.result = .ok doc := by cbv
  have hfinite : (doc.toJson none none).isFinite = false := by decide
  refine ⟨hcheck, hdoc, hfinite, fun htext => ?_⟩
  rw [(Json.isText_render_iff _ _).mp htext] at hfinite
  cases hfinite

end Manifest

end ApiOutline
