/-
ApiOutline/Proofs/FiniteParts.lean

The numbers in a written document.

Design.  Numbers stand in a document as examples only, of schemas and of parameters.  The
schemas of a document have been compiled, so their examples fit their types and are finite
(`Document.Fit`, kept by all that puts a document together).  What is left are the parameters:
a document is free of infinities and `nan` exactly if the examples of its parameters are.

Main result: `Document.isFinite_toJson_iff`.
-/
import ApiOutline.Proofs.NodeForm
import ApiOutline.Proofs.RouteOrder

namespace ApiOutline

/-! ### Schemas -/

theorem isFinite_ofScalar (s : Scalar) : (Json.ofScalar s).isFinite = s.isFinite := by
  cases s <;> rfl

theorem Scalar.Fits.isFinite {type : TypeName} {s : Scalar} (h : s.Fits type) :
    s.isFinite = true := by
  cases h with
  | number hx => exact hx
  | _ => rfl

theorem Note.all_fields {type : TypeName} {n : Note} (h : n.Fits type) :
    n.fields.all (fun f => f.2.isFinite) = true := by
  obtain ⟨example?, required?⟩ := n
  have hexample : ∀ e ∈ example?, (Json.ofScalar e).isFinite = true := by
    intro e he
    rw [isFinite_ofScalar]
    exact (h e he).isFinite
  cases example? <;> cases required? <;> simp_all [fields, Json.field?]

namespace Schema

theorem isFinite_choice {items : List Json} (h : ∀ v ∈ items, v.isFinite = true) :
    (choice items).isFinite = true := by
  rcases items with - | ⟨v, - | ⟨w, items⟩⟩
  · rfl
  · exact h v List.mem_cons_self
  · simpa [choice] using h

mutual

/-- A node whose examples fit their types is written without infinities and `nan`. -/
theorem isFinite_toJson : (s : Schema) → s.Fit → s.toJson.isFinite = true
  | .plain type n, h => by
    rw [toJson, fields, Json.isFinite_object, List.all_cons, Note.all_fields h]
    rfl
  | .object ps n, h => by
    have hproperties : (Json.object (propertyFields ps)).isFinite = true := by
      rw [propertyFields_eq_map, Json.isFinite_object, List.all_map, List.all_eq_true]
      exact isFinite_properties ps h.1
    rw [toJson, fields, Json.isFinite_object, List.all_cons, List.all_cons, Note.all_fields h.2,
      hproperties]
    rfl
  | .array items n, h => by
    have hitems : (choice (itemNodes items)).isFinite = true := by
      refine isFinite_choice fun v hv => ?_
      rw [itemNodes_eq_map] at hv
      obtain ⟨s, hs, rfl⟩ := List.mem_map.mp hv
      exact isFinite_items items h.1 s hs
    rw [toJson, fields, Json.isFinite_object, List.all_cons, List.all_cons, Note.all_fields h.2,
      hitems]
    rfl

/-- The same for properties. -/
theorem isFinite_properties : (ps : List (String × Schema)) → propertiesFit ps →
    ∀ p ∈ ps, p.2.toJson.isFinite = true
  | [], _ => by simp
  | (_, s) :: ps, h =>
    List.forall_mem_cons.mpr ⟨isFinite_toJson s h.1, isFinite_properties ps h.2⟩

/-- The same for items. -/
theorem isFinite_items : (items : List Schema) → itemsFit items →
    ∀ s ∈ items, s.toJson.isFinite = true
  | [], _ => by simp
  | s :: items, h => List.forall_mem_cons.mpr ⟨isFinite_toJson s h.1, isFinite_items items h.2⟩

end

theorem isFinite_rootJson {s : Schema} (h : s.Fit) : s.rootJson.isFinite = true := by
  have hnode := isFinite_toJson s h
  rw [toJson, Json.isFinite_object] at hnode
  rw [rootJson, Json.isFinite_object, List.all_append, hnode]
  rfl

end Schema

/-! ### Operations -/

/-- The examples in the schema of a body fit their types. -/
def Body.Fit : Body → Prop
  | reference _ => True
  | schema s => s.Fit

theorem Body.Fit.of_read {outline : String} {b : Body} (h : (Body.read outline).result = .ok b) :
    b.Fit := by
  rw [read] at h
  split at h
  · obtain rfl := Except.ok.inj h
    trivial
  · obtain ⟨s, hs, rfl⟩ := Traced.result_map_eq_ok_iff.mp h
    exact Shape.fit_of_compile (Traced.result_mapError_eq_ok_iff.mp hs)

theorem Body.Fit.isFinite {b : Body} (h : b.Fit) (mediaType : String) :
    (b.contentJson mediaType).isFinite = true := by
  have hbody : b.toJson.isFinite = true := by
    cases b with
    | reference target => rfl
    | schema s => exact Schema.isFinite_rootJson h
  simp [contentJson, hbody]

/-- The examples in the schema of a detail fit their types. -/
def Detail.Fit : Detail → Prop
  | requestBody b => b.Fit
  | _ => True

theorem Detail.Fit.isFinite {d : Detail} (h : d.Fit) : d.toJson.isFinite = true := by
  cases d with
  | requestBody b =>
    have hbody : b.Fit := h
    simp [toJson, hbody.isFinite]
  | _ => rfl

/-- The examples in the schema of a response fit their types. -/
def Response.Fit (r : Response) : Prop := ∀ b ∈ r.body?, b.Fit

theorem Response.Fit.of_read {outline : String} {r : Response}
    (h : (Response.read outline).result = .ok r) : r.Fit := by
  rw [read] at h
  split at h
  · obtain rfl := Except.ok.inj h
    intro b hb
    cases hb
  · obtain ⟨body, hbody, rfl⟩ := Traced.result_map_eq_ok_iff.mp h
    intro b hb
    obtain rfl := Option.some.inj hb
    exact Body.Fit.of_read hbody

theorem Response.Fit.isFinite {r : Response} (h : r.Fit) : r.toJson.isFinite = true := by
  obtain ⟨- | b⟩ := r
  · rfl
  · have hbody : b.Fit := h b rfl
    simp [toJson, Json.field?, hbody.isFinite]

/-- The example of a parameter is no infinity and not `nan`. -/
def Parameter.isFinite (p : Parameter) : Bool := p.example?.all Scalar.isFinite

theorem Parameter.isFinite_toJson (p : Parameter) : p.toJson.isFinite = p.isFinite := by
  obtain ⟨name, location, required, type, description, example?⟩ := p
  rcases example? with - | e <;> by_cases hd : description = "" <;>
    simp [toJson, schemaJson, isFinite, Json.field?, hd, isFinite_ofScalar]

namespace Operation

variable {op op' : Operation}

/-- The examples in the schemas of an operation fit their types. -/
structure Fit (op : Operation) : Prop where
  responses : ∀ r ∈ op.responses, r.2.Fit
  details : ∀ d ∈ op.details, d.2.Fit

theorem Fit.give (h : op.Fit) {d : Detail} (hd : d.Fit) : (op.give d).Fit := by
  refine ⟨h.responses, fun e he => ?_⟩
  rcases Table.mem_of_mem_set he with rfl | he
  · exact hd
  · exact h.details e he

theorem Fit.edit (h : op.Fit) {e : Edit} (he : (op.edit e).result = .ok op') : op'.Fit := by
  cases e with
  | request outline =>
    obtain ⟨b, hb, he⟩ := Traced.result_bind_eq_ok_iff.mp he
    obtain rfl := Except.ok.inj he
    exact h.give (Body.Fit.of_read hb)
  | respond code outline =>
    obtain ⟨r, hr, he⟩ := Traced.result_bind_eq_ok_iff.mp he
    rcases hc : code.written? with - | key
    · rw [hc] at he
      cases he
    · rw [hc] at he
      obtain rfl := Except.ok.inj he
      refine ⟨fun q hq => ?_, h.details⟩
      rcases Table.mem_of_mem_set hq with rfl | hq
      · exact Response.Fit.of_read hr
      · exact h.responses q hq
  | declare location ds =>
    obtain ⟨ps, -, he⟩ := Traced.result_bind_eq_ok_iff.mp he
    obtain rfl := Except.ok.inj he
    exact ⟨h.responses, h.details⟩
  | tag name =>
    obtain rfl := Except.ok.inj he
    exact h.give trivial
  | summarize text =>
    obtain rfl := Except.ok.inj he
    exact h.give trivial
  | describe text =>
    obtain rfl := Except.ok.inj he
    exact ⟨h.responses, h.details⟩
  | «deprecate» =>
    obtain rfl := Except.ok.inj he
    exact h.give trivial
  | secure scheme =>
    obtain rfl := Except.ok.inj he
    exact h.give trivial

theorem Fit.ofTemplate (template : String) : (Operation.ofTemplate template).Fit :=
  ⟨fun r hr => (by cases hr), fun d hd => (by cases hd)⟩

/-- An operation is written without infinities and `nan` if its parameters are. -/
theorem Fit.isFinite_toJson_iff (h : op.Fit) :
    op.toJson.isFinite = true ↔ ∀ p ∈ op.parameters, p.isFinite = true := by
  have hresponses : (op.responses.all fun r => r.2.toJson.isFinite) = true :=
    List.all_eq_true.mpr fun r hr => (h.responses r hr).isFinite
  have hdetails : (op.details.all fun d => d.2.toJson.isFinite) = true :=
    List.all_eq_true.mpr fun d hd => (h.details d hd).isFinite
  simp only [toJson, Json.isFinite_object, Json.isFinite_array, Json.isFinite_text, List.all_append,
    List.all_cons, List.all_nil, List.all_map, Function.comp_def, Parameter.isFinite_toJson,
    hresponses, hdetails, Bool.and_true, List.all_eq_true]

end Operation

/-! ### Documents -/

/-- The examples in the schema of a component fit their types. -/
def Component.Fit : Component → Prop
  | securityScheme _ => True
  | schema s => s.Fit

theorem Component.Fit.isFinite {c : Component} (h : c.Fit) : c.toJson.isFinite = true := by
  cases c with
  | schema s => exact Schema.isFinite_rootJson h
  | securityScheme s =>
    obtain ⟨type, scheme, - | format, required⟩ := s <;>
      simp [toJson, SecurityScheme.toJson, Json.field?]

theorem Server.isFinite_toJson (s : Server) : s.toJson.isFinite = true := by
  obtain ⟨url, - | description⟩ := s <;>
    simp [toJson, Json.field?]

theorem Tag.isFinite_toJson (t : Tag) : t.toJson.isFinite = true := by
  obtain ⟨name, - | description⟩ := t <;>
    simp [toJson, Json.field?]

namespace Document

variable {doc doc' : Document}

/-- The examples in the schemas of a document fit their types. -/
structure Fit (doc : Document) : Prop where
  operations : ∀ r op, doc.operation? r = some op → op.Fit
  components : ∀ c ∈ doc.components, ∀ e ∈ c.2, e.2.Fit

theorem Fit.store (h : doc.Fit) (r : Route) {op : Operation} (hop : op.Fit) :
    (doc.store r op).Fit := by
  refine ⟨fun q op' hq => ?_, h.components⟩
  rw [operation?_store] at hq
  split at hq
  · obtain rfl := Option.some.inj hq
    exact hop
  · exact h.operations q op' hq

theorem Fit.register (h : doc.Fit) {template : String} {m : Method} {es : List Edit}
    (hr : (doc.register template m es).result = .ok doc') : doc'.Fit := by
  obtain ⟨old, op, rfl, hop, hold⟩ := register_cases hr
  have hfit : old.Fit := by
    rw [hold]
    rcases hget : doc.operation? (Route.of template m) with - | op'
    · exact .ofTemplate template
    · exact h.operations _ op' hget
  have hedit : ∀ (a b : Operation) (e : Edit), a.Fit → (a.edit e).result = .ok b → b.Fit :=
    fun a b e ha => ha.edit
  exact h.store _ ((Operation.Becomes.editAll hop).induct hfit hedit)

theorem Fit.addComponent (h : doc.Fit) (name : String) {c : Component} (hc : c.Fit) :
    (doc.addComponent name c).Fit := by
  refine ⟨h.operations, fun d hd e he => ?_⟩
  rcases Table.mem_of_mem_set hd with rfl | hd
  · rcases Table.mem_of_mem_set he with rfl | he
    · exact hc
    · -- the component was there before
      rcases hget : Table.get? doc.components c.kind with - | es
      · rw [hget] at he
        cases he
      · rw [hget] at he
        exact h.components _ (Table.mem_of_get?_eq_some hget) e he
  · exact h.components d hd e he

/-- A document is written without infinities and `nan` if its parameters are. -/
theorem isFinite_toJson_iff (hvalid : doc.Valid) (h : doc.Fit) (title version : Option String) :
    (doc.toJson title version).isFinite = true ↔
      ∀ r op, doc.operation? r = some op → ∀ p ∈ op.parameters, p.isFinite = true := by
  have hservers : (doc.servers.all fun s => s.toJson.isFinite) = true :=
    List.all_eq_true.mpr fun s _ => s.isFinite_toJson
  have htags : (doc.tags.all fun t => t.toJson.isFinite) = true :=
    List.all_eq_true.mpr fun t _ => t.isFinite_toJson
  have hcomponents : (doc.components.all fun c => c.2.all fun e => e.2.toJson.isFinite) = true :=
    List.all_eq_true.mpr fun c hc =>
      List.all_eq_true.mpr fun e he => (h.components c hc e he).isFinite
  -- what is left of the document are its operations
  have hpaths : (doc.toJson title version).isFinite = true ↔
      ∀ p ∈ doc.paths, ∀ o ∈ p.2, o.2.toJson.isFinite = true := by
    simp only [toJson, Json.isFinite_object, Json.isFinite_array, Json.isFinite_text, List.all_cons,
      List.all_nil, List.all_map, Function.comp_def, hservers, htags, hcomponents, Bool.and_true,
      Bool.true_and, List.all_eq_true]
  rw [hpaths]
  constructor
  · intro hall r op hop p hp
    obtain ⟨hpath, hmem⟩ := mem_of_operation? hop
    have hfinite : op.toJson.isFinite = true := hall _ hpath _ hmem
    exact (h.operations r op hop).isFinite_toJson_iff.mp hfinite p hp
  · intro hall p hp o ho
    have hop := operation?_of_mem hvalid hp ho
    exact (h.operations _ _ hop).isFinite_toJson_iff.mpr (hall _ _ hop)

end Document

/-! ### Manifests -/

namespace Manifest

theorem fit_frame (m : Manifest) : m.frame.Fit := by
  have hfold : ∀ (es : List (String × SecurityScheme)) (doc : Document), doc.Fit →
      (es.foldl (fun doc e => doc.addComponent e.1 (.securityScheme e.2)) doc).Fit := by
    intro es
    induction es with
    | nil => exact fun doc h => h
    | cons e es ih => exact fun doc h => ih _ (h.addComponent e.1 trivial)
  exact hfold m.security _ ⟨fun r op h => (by cases h), fun c hc => (by cases hc)⟩

theorem fit_addSchemas {doc doc' : Document} (h : doc.Fit) {es : List (String × String)}
    (hs : (addSchemas doc es).result = .ok doc') : doc'.Fit := by
  induction es generalizing doc with
  | nil =>
    obtain rfl := Except.ok.inj hs
    exact h
  | cons e es ih =>
    obtain ⟨next, hnext, hs⟩ := Traced.result_bind_eq_ok_iff.mp hs
    obtain ⟨s, hcompile, hnext⟩ := Traced.result_bind_eq_ok_iff.mp hnext
    obtain rfl := Except.ok.inj hnext
    have hfit := Shape.fit_of_compile (Traced.result_mapError_eq_ok_iff.mp hcompile)
    exact ih (h.addComponent e.1 (c := .schema s) hfit) hs

theorem fit_addRoutes {doc doc' : Document} (h : doc.Fit) {es : List RouteEntry}
    (hr : (addRoutes doc es).result = .ok doc') : doc'.Fit := by
  induction es generalizing doc with
  | nil =>
    obtain rfl := Except.ok.inj hr
    exact h
  | cons e es ih =>
    obtain ⟨m, -, hr⟩ := Traced.result_bind_eq_ok_iff.mp hr
    obtain ⟨next, hnext, hr⟩ := Traced.result_bind_eq_ok_iff.mp hr
    exact ih (h.register hnext) hr

/-- The schemas of a document that a manifest describes have examples that fit their types. -/
theorem fit_build {m : Manifest} {doc : Document} (h : m.build.result = .ok doc) : doc.Fit := by
  obtain ⟨base, hbase, hdoc⟩ := Traced.result_bind_eq_ok_iff.mp h
  exact fit_addRoutes (fit_addSchemas m.fit_frame hbase) hdoc

end Manifest

end ApiOutline
