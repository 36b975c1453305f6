/-
ApiOutline/Proofs/Demands.lean

What a manifest demands, and the first demand that is not met.

Design.  To build a document, outlines are compiled, and methods, codes and declarations are
read, one after the other.  None of this depends on the document, so a manifest is a list of
demands (`Manifest.demands`), and building fails as the first one does that is not met
(`Manifest.verdict_build`).

A demand that is not met is reported as a fault of the manifest, with two exceptions: an
outline with a block that refers to itself, and a definition of a parameter whose schema is
no mapping (`Demand.Strays`).

Main result: `Manifest.build_reports_iff`.
-/
import ApiOutline.Command.Run
import ApiOutline.Proofs.Acceptance
import ApiOutline.Proofs.Reentry
import ApiOutline.Proofs.Registration

namespace ApiOutline

/-! ### Demands -/

/-- Something that is asked for while a document is built from a manifest. -/
inductive Demand where
  /-- the schema that an outline describes -/
  | outline (text : String)
  /-- the method with a name -/
  | method (name : String)
  /-- a code, written -/
  | code (code : Code)
  /-- the parameter that a declaration declares -/
  | declaration (location : String) (declaration : Data)

/-- Whether a computation does well, its value forgotten. -/
def verdict {α : Type} (x : Except Fault α) : Except Fault Unit := x.map fun _ => ()

/-- Whether a demand is met. -/
def Demand.check : Demand → Except Fault Unit
  | .outline text => verdict ((Shape.compile text).result.mapError Fault.outline)
  | .method name => verdict (Method.read name)
  | .code c => if c.written?.isSome then .ok () else .error .longCode
  | .declaration location d => verdict (Parameter.ofDeclaration location d)

/-- The demands of a body: a reference makes none. -/
def Body.demands (outline : String) : List Demand :=
  if outline.toList.head? = some '#' then [] else [.outline outline]

/-- The demands of a response: one without a body makes none. -/
def Response.demands (outline : String) : List Demand :=
  if Text.allBlank outline.toList then [] else Body.demands outline

/-- The demands of an edit. -/
def Edit.demands : Edit → List Demand
  | .request outline => Body.demands outline
  | .respond code outline => Response.demands outline ++ [.code code]
  | .declare location ds => ds.map (.declaration location)
  | _ => []

/-- The demands of a route: its method, and what its options ask for. -/
def RouteEntry.demands (e : RouteEntry) : List Demand :=
  .method e.method :: e.options.edits.flatMap Edit.demands

/-- The demands of a manifest: its schemas, and then its routes. -/
def Manifest.demands (m : Manifest) : List Demand :=
  m.schemas.map (fun e => .outline e.2) ++ m.routes.flatMap RouteEntry.demands

/-! ### Verdicts -/

section

variable {α β ε : Type}

theorem verdict_eq_error_iff {x : Except Fault α} {f : Fault} :
    verdict x = .error f ↔ x = .error f := by
  cases x <;> simp [verdict, Except.map]

/-- A second computation whose verdict does not depend on the value of the first. -/
theorem verdict_bind {x : Except Fault α} {f : α → Except Fault β} {y : Except Fault Unit}
    (h : ∀ a, verdict (f a) = y) : verdict (x >>= f) = verdict x >>= fun _ => y := by
  cases x with
  | error e => rfl
  | ok a => exact h a

theorem forM_flatMap {f : α → List β} {check : β → Except ε Unit} (as : List α) :
    forM (as.flatMap f) check = forM as fun a => forM (f a) check := by
  induction as with
  | nil => rfl
  | cons a as ih => rw [List.flatMap_cons, List.forM_append, ih, List.forM_cons]

/-- Checks in a row fail as the first one does that fails. -/
theorem forM_eq_error_iff {check : α → Except ε Unit} {as : List α} {e : ε} :
    forM as check = .error e ↔
      ∃ before a after, as = before ++ a :: after ∧ (∀ b ∈ before, check b = .ok ()) ∧
        check a = .error e := by
  induction as with
  | nil =>
    refine ⟨fun h => (by cases h), ?_⟩
    rintro ⟨- | ⟨b, before⟩, a, after, h, -⟩ <;> cases h
  | cons a as ih =>
    rw [List.forM_cons]
    rcases ha : check a with e' | u
    · constructor
      · intro h
        obtain rfl := Except.error.inj h
        exact ⟨[], a, as, rfl, by simp, ha⟩
      · rintro ⟨- | ⟨b, before⟩, c, after, heq, hbefore, hc⟩
        · obtain ⟨rfl, rfl⟩ := List.cons.inj heq
          exact ha.symm.trans hc
        · obtain ⟨rfl, -⟩ := List.cons.inj heq
          rw [hbefore a List.mem_cons_self] at ha
          cases ha
    · show forM as check = .error e ↔ _
      rw [ih]
      constructor
      · rintro ⟨before, c, after, rfl, hbefore, hc⟩
        refine ⟨a :: before, c, after, rfl, fun b hb => ?_, hc⟩
        rcases List.mem_cons.mp hb with rfl | hb
        · exact ha
        · exact hbefore b hb
      · rintro ⟨- | ⟨b, before⟩, c, after, heq, hbefore, hc⟩
        · obtain ⟨rfl, rfl⟩ := List.cons.inj heq
          rw [ha] at hc
          cases hc
        · obtain ⟨rfl, rfl⟩ := List.cons.inj heq
          exact ⟨before, c, after, rfl, fun b hb => hbefore b (List.mem_cons_of_mem _ hb), hc⟩

end

theorem verdict_body (outline : String) :
    verdict (Body.read outline).result = forM (Body.demands outline) Demand.check := by
  rw [Body.read, Body.demands]
  split
  · rfl
  · rw [List.forM_cons, Demand.check, Traced.result_map, Traced.result_mapError]
    rcases (Shape.compile outline).result with f | s <;> rfl

theorem verdict_response (outline : String) :
    verdict (Response.read outline).result = forM (Response.demands outline) Demand.check := by
  rw [Response.read, Response.demands]
  split
  · rfl
  · rw [← verdict_body, Traced.result_map]
    rcases (Body.read outline).result with f | b <;> rfl

theorem verdict_declarations (location : String) (ds : List Data) :
    verdict (Parameter.ofDeclarations location ds) =
      forM (ds.map (Demand.declaration location)) Demand.check := by
  induction ds with
  | nil => rfl
  | cons d ds ih =>
    rw [List.map_cons, List.forM_cons, ← ih]
    refine verdict_bind fun p => ?_
    rcases Parameter.ofDeclarations location ds with f | ps <;> rfl

/-- An edit is read if its demands are met. -/
theorem verdict_edit (e : Edit) : verdict e.read = forM e.demands Demand.check := by
  cases e with
  | request outline =>
    rw [Edit.read, Edit.demands, ← verdict_body]
    rcases (Body.read outline).result with f | b <;> rfl
  | respond code outline =>
    rw [Edit.read, Edit.demands, List.forM_append, ← verdict_response]
    refine verdict_bind fun r => ?_
    rw [List.forM_cons, Demand.check]
    rcases code.written? with - | key <;> rfl
  | declare location ds =>
    rw [Edit.read, Edit.demands, ← verdict_declarations]
    rcases Parameter.ofDeclarations location ds with f | ps <;> rfl
  | _ => rfl

theorem verdict_edits (es : List Edit) :
    verdict (Edit.readAll es) = forM (es.flatMap Edit.demands) Demand.check := by
  rw [forM_flatMap]
  induction es with
  | nil => rfl
  | cons e es ih =>
    rw [List.forM_cons, ← ih, ← verdict_edit]
    refine verdict_bind fun f => ?_
    rcases Edit.readAll es with f | g <;> rfl

theorem verdict_entry (e : RouteEntry) : verdict e.read = forM e.demands Demand.check := by
  rw [RouteEntry.read, RouteEntry.demands, List.forM_cons, ← verdict_edits]
  refine verdict_bind fun m => ?_
  rcases Edit.readAll e.options.edits with f | g <;> rfl

theorem verdict_entries (es : List RouteEntry) :
    verdict (es.mapM RouteEntry.read) = forM (es.flatMap RouteEntry.demands) Demand.check := by
  rw [forM_flatMap]
  induction es with
  | nil => rfl
  | cons e es ih =>
    rw [List.forM_cons, ← ih, ← verdict_entry, List.mapM_cons]
    refine verdict_bind fun g => ?_
    rcases es.mapM RouteEntry.read with f | gs <;> rfl

namespace Manifest

theorem verdict_addSchemas (doc : Document) (es : List (String × String)) :
    verdict (addSchemas doc es).result =
      forM (es.map fun e => Demand.outline e.2) Demand.check := by
  induction es generalizing doc with
  | nil => rfl
  | cons e es ih =>
    rw [addSchemas, Document.addSchema, List.map_cons, List.forM_cons, Demand.check]
    simp only [Traced.result_bind, Traced.result_mapError]
    rcases (Shape.compile e.2).result with f | s
    · rfl
    · exact ih _

/-- **Demands.**  Building a document fails as the first demand does that is not met. -/
theorem verdict_build (m : Manifest) :
    verdict m.build.result = forM m.demands Demand.check := by
  rw [build, demands, List.forM_append, ← verdict_addSchemas m.frame, ← verdict_entries,
    Traced.result_bind]
  refine verdict_bind fun doc => ?_
  rw [result_addRoutes]
  rcases m.routes.mapM RouteEntry.read with f | gs <;> rfl

end Manifest

/-! ### Demands that stray -/

namespace Demand

/-- The demand cannot be met, and this is not reported as a fault of the manifest: a block is looked
up while it is being resolved, or the schema of a definition is no mapping. -/
def Strays : Demand → Prop
  | .outline text => Shape.Reenters (Flat.ofText (Text.squeeze text.toList))
  | .declaration _ (.map es) => ∀ schema, Parameter.fieldOr es "schema" (.map []) ≠ .map schema
  | _ => False

/-- A declaration that the demand asks to read can declare a parameter. -/
def Fit : Demand → Prop
  | .declaration _ d => d.IsDeclaration
  | _ => True

theorem strays_outline_iff (text : String) :
    (outline text).Strays ↔
      ∃ f, (outline text).check = .error f ∧ (Manifest.Fault.refused f).isBlamed = false := by
  have hself : (outline text).Strays ↔ (Shape.compile text).result = .error .selfReference := by
    rw [Shape.compile_result_eq_selfReference_iff]
    exact (Shape.circular_resolveFlat_iff _).symm
  rw [hself, check]
  rcases (Shape.compile text).result with (⟨source, cause⟩ | -) | s
  · refine ⟨fun h => (by cases h), ?_⟩
    rintro ⟨f, hf, hblamed⟩
    cases hf
    cases hblamed
  · exact ⟨fun _ => ⟨_, rfl, rfl⟩, fun _ => rfl⟩
  · refine ⟨fun h => (by cases h), ?_⟩
    rintro ⟨f, hf, -⟩
    cases hf

theorem strays_declaration_iff (location : String) {d : Data} (hd : d.IsDeclaration) :
    (declaration location d).Strays ↔
      ∃ f, (declaration location d).check = .error f ∧
        (Manifest.Fault.refused f).isBlamed = false := by
  cases d with
  | text s =>
    refine ⟨False.elim, ?_⟩
    rintro ⟨f, hf, -⟩
    cases hf
  | map es =>
    rw [Strays, check, Parameter.ofDeclaration, Parameter.ofDefinition]
    split
    · -- the fields of the parameter are checked, and what is wrong with them is reported
      rename_i schema hschema
      refine ⟨fun h => absurd hschema (h schema), ?_⟩
      rintro ⟨f, hf, hblamed⟩
      rw [verdict_eq_error_iff] at hf
      rcases hcheck : (Parameter.Draft.ofDefinition location es schema).check with p | places
      · rw [hcheck] at hf
        cases hf
      · rw [hcheck] at hf
        cases hf
        cases hblamed
    · rename_i hschema
      exact ⟨fun _ => ⟨_, rfl, rfl⟩, fun _ => hschema⟩
  | _ => exact hd.elim

/-- The demands that stray are those that fail without a report. -/
theorem strays_iff {d : Demand} (hd : d.Fit) :
    d.Strays ↔ ∃ f, d.check = .error f ∧ (Manifest.Fault.refused f).isBlamed = false := by
  cases d with
  | outline text => exact strays_outline_iff text
  | method name =>
    refine ⟨False.elim, ?_⟩
    rintro ⟨f, hf, hblamed⟩
    rw [check, verdict_eq_error_iff, Method.read] at hf
    split at hf
    · cases hf
    · cases hf
      cases hblamed
  | code c =>
    refine ⟨False.elim, ?_⟩
    rintro ⟨f, hf, hblamed⟩
    rw [check] at hf
    split at hf
    · cases hf
    · cases hf
      cases hblamed
  | declaration location d => exact strays_declaration_iff location hd

end Demand

namespace Manifest

theorem fit_of_mem_bodyDemands {outline : String} {d : Demand} (hd : d ∈ Body.demands outline) :
    d.Fit := by
  rw [Body.demands] at hd
  split at hd
  · cases hd
  · obtain rfl := List.mem_singleton.mp hd
    trivial

theorem fit_of_mem_editDemands {o : Options} (ho : o.Declares) {e : Edit} (he : e ∈ o.edits)
    {d : Demand} (hd : d ∈ e.demands) : d.Fit := by
  cases e with
  | request outline => exact fit_of_mem_bodyDemands hd
  | respond code outline =>
    rcases List.mem_append.mp hd with hd | hd
    · rw [Response.demands] at hd
      split at hd
      · cases hd
      · exact fit_of_mem_bodyDemands hd
    · obtain rfl := List.mem_singleton.mp hd
      trivial
  | declare location ds =>
    obtain ⟨x, hx, rfl⟩ := List.mem_map.mp hd
    -- the declarations are those of the query or those of the header
    have hds : (∃ q, o.query = some q ∧ "query" = location ∧ Parameter.split q = ds) ∨
        ∃ q, o.header = some q ∧ "header" = location ∧ Parameter.split q = ds := by
      simpa [Options.edits] using he
    rcases hds with ⟨q, hq, -, rfl⟩ | ⟨q, hq, -, rfl⟩
    · exact ho.query q hq x hx
    · exact ho.header q hq x hx
  | _ => cases hd

/-- The declarations of an accepted manifest can declare parameters. -/
theorem fit_of_mem_demands {v : Data} {m : Manifest} (h : check v = .accepted m) :
    ∀ d ∈ m.demands, d.Fit := by
  intro d hd
  rcases List.mem_append.mp hd with hd | hd
  · obtain ⟨e, -, rfl⟩ := List.mem_map.mp hd
    trivial
  · obtain ⟨e, he, hd⟩ := List.mem_flatMap.mp hd
    rcases List.mem_cons.mp hd with rfl | hd
    · trivial
    · obtain ⟨edit, hedit, hd⟩ := List.mem_flatMap.mp hd
      exact fit_of_mem_editDemands (declares_of_check h e he) hedit hd

/-- The first demand of the manifest that is not met strays. -/
def Strays (m : Manifest) : Prop :=
  ∃ before d after, m.demands = before ++ d :: after ∧ (∀ b ∈ before, b.check = .ok ()) ∧ d.Strays

/-- A manifest strays if building fails without a report. -/
theorem strays_iff {v : Data} {m : Manifest} (h : check v = .accepted m) :
    m.Strays ↔ ∃ f, m.build.result = .error f ∧ (Fault.refused f).isBlamed = false := by
  have hfit := fit_of_mem_demands h
  constructor
  · rintro ⟨before, d, after, hdemands, hbefore, hd⟩
    have hmem : d ∈ m.demands := by simp [hdemands]
    obtain ⟨f, hf, hblamed⟩ := (Demand.strays_iff (hfit d hmem)).mp hd
    refine ⟨f, ?_, hblamed⟩
    rw [← verdict_eq_error_iff, verdict_build, forM_eq_error_iff]
    exact ⟨before, d, after, hdemands, hbefore, hf⟩
  · rintro ⟨f, hf, hblamed⟩
    rw [← verdict_eq_error_iff, verdict_build, forM_eq_error_iff] at hf
    obtain ⟨before, d, after, hdemands, hbefore, hf⟩ := hf
    have hmem : d ∈ m.demands := by simp [hdemands]
    exact ⟨before, d, after, hdemands, hbefore, (Demand.strays_iff (hfit d hmem)).mpr ⟨f, hf, hblamed⟩⟩

/-! ### Reports -/

/-- The program ends with the message of a fault, and nothing is written. -/
structure IsReport (o : Command.Outcome) (f : ApiOutline.Fault) : Prop where
  exit : o.exit = 1
  breakdown : o.breakdown = none
  written : o.written = none
  stderr : ∃ notes, o.stderr = notes ++ Command.errorLine f.message

theorem ofData_eq_ok_iff {v : Data} {m : Manifest} : ofData v = .ok m ↔ check v = .accepted m := by
  cases v with
  | map es =>
    have hcheck : check (.map es) = ofFields es := rfl
    rw [ofData, hcheck]
    rcases ofFields es with m' | places
    · exact ⟨fun h => congrArg Checked.accepted (Except.ok.inj h),
        fun h => congrArg Except.ok (Checked.accepted.inj h)⟩
    · exact ⟨fun h => (by cases h), fun h => (by cases h)⟩
  | _ => exact ⟨fun h => (by cases h), fun h => (by cases h)⟩

/-- What a file with the text of an accepted manifest comes to. -/
theorem load_eq {v : Data} {m : Manifest} (h : check v = .accepted m) {text : String}
    (hread : readText text = .ok v) : load (some text) = m.build.mapError .refused := by
  have hdata : readText text >>= ofData = .ok m := by
    rw [hread]
    exact ofData_eq_ok_iff.mpr h
  rw [load, hdata]

/-- A text describes a document if it is read as an accepted manifest, and the document is built
from that. -/
theorem result_load_eq_ok_iff {text : String} {doc : Document} :
    (load (some text)).result = .ok doc ↔
      ∃ v m, readText text = .ok v ∧ check v = .accepted m ∧ m.build.result = .ok doc := by
  constructor
  · intro h
    rcases hdata : readText text >>= ofData with f | m
    · rw [load, hdata] at h
      cases h
    obtain ⟨v, hread, hm⟩ := bind_eq_ok_iff.mp hdata
    have hcheck := ofData_eq_ok_iff.mp hm
    rw [load_eq hcheck hread, Traced.result_mapError_eq_ok_iff] at h
    exact ⟨v, m, hread, hcheck, h⟩
  · rintro ⟨v, m, hread, hcheck, hbuild⟩
    rw [load_eq hcheck hread, Traced.result_mapError_eq_ok_iff]
    exact hbuild

/-- What the program does with the text of an accepted manifest that is refused. -/
theorem isReport_runBuild_iff {v : Data} {m : Manifest} (h : check v = .accepted m)
    {f : ApiOutline.Fault} (hf : m.build.result = .error f) {disk : Command.Disk}
    {path text : String} (hfile : Command.find disk path = .file text)
    (hread : readText text = .ok v) (verbose : Bool) (output : String)
    (title version : Option String) (format : Option Command.Format) :
    IsReport (Command.runBuild disk verbose path output title version format) f ↔
      (Fault.refused f).isBlamed = true := by
  rw [Command.runBuild, hfile]
  dsimp only
  rw [load_eq h hread, Traced.result_mapError, hf]
  dsimp only [Except.mapError]
  split
  · rename_i hblamed
    exact ⟨fun _ => hblamed, fun _ => ⟨rfl, rfl, rfl, _, rfl⟩⟩
  · rename_i hblamed
    exact ⟨fun hreport => (by cases hreport.breakdown), fun h => absurd h hblamed⟩

/-- **Reports.**  For an accepted manifest, building gives a document or a fault that is reported as
one of the manifest, and the program ends a build that fails with an error message, exactly if the
first demand that is not met does not stray. -/
theorem build_reports_iff {v : Data} {m : Manifest} (h : check v = .accepted m) :
    (((∃ doc, m.build.result = .ok doc) ∨
        ∃ f, m.build.result = .error f ∧ (Fault.refused f).isBlamed = true) ↔ ¬ m.Strays) ∧
      ∀ disk verbose path output title version format text,
        Command.find disk path = .file text → readText text = .ok v →
          ((∀ f, m.build.result = .error f →
            IsReport (Command.runBuild disk verbose path output title version format) f) ↔
              ¬ m.Strays) := by
  rw [strays_iff h]
  refine ⟨?_, fun disk verbose path output title version format text hfile hread => ?_⟩
  · rcases m.build.result with f | doc
    · simp
    · simp
  · have hreport := fun f hf =>
      isReport_runBuild_iff (f := f) h hf hfile hread verbose output title version format
    rcases hresult : m.build.result with f | doc
    · simp [hreport f hresult]
    · simp

/-- A method that there is not is reported, also by the program. -/
theorem build_reports_unknown_method :
    let v : Data := .map [(.text "routes", .list
      [.map [(.text "path", .text "/pets"), (.text "method", .text "fetch")]])]
    let m : Manifest := { routes := [⟨{}, "/pets", "fetch"⟩] }
    check v = .accepted m ∧ ¬ m.Strays ∧
      ∀ disk verbose path output title version format text,
        Command.find disk path = .file text → readText text = .ok v →
          IsReport (Command.runBuild disk verbose path output title version format)
            (.unsupportedMethod "fetch") := by
  intro v m
  have hcheck : check v = .accepted m := rfl
  have hfault : m.build.result = .error (.unsupportedMethod "fetch") := by cbv
  obtain ⟨hbuild, hrun⟩ := build_reports_iff hcheck
  have hstrays : ¬ m.Strays := hbuild.mp (.inr ⟨_, hfault, rfl⟩)
  refine ⟨hcheck, hstrays, fun disk verbose path output title version format text hfile hread => ?_⟩
  exact (hrun disk verbose path output title version format text hfile hread).mpr hstrays _ hfault

/-- A parameter whose schema is a number, and a block that stands for itself: neither fault is
reported. -/
theorem build_breaks_down :
    let v : Data := .map [(.text "routes", .list [.map [(.text "path", .text "/pets"),
      (.text "query", .list [.map [(.text "name", .text "page"), (.text "schema", .integer 5)]])]])]
    let query : Data := .list [.map [(.text "name", .text "page"), (.text "schema", .integer 5)]]
    let m : Manifest := { routes := [⟨{ query := some query }, "/pets", "get"⟩] }
    let v' : Data := .map [(.text "schemas", .map [(.text "Pet", .text "{a:$0}")])]
    let m' : Manifest := { schemas := [("Pet", "{a:$0}")] }
    (check v = .accepted m ∧ m.build.result = .error .notParameterSchema ∧
        (Fault.refused .notParameterSchema).isBlamed = false) ∧
      check v' = .accepted m' ∧ m'.build.result = .error (.outline .selfReference) ∧
        (Fault.refused (.outline .selfReference)).isBlamed = false := by
  intro v query m v' m'
  have hschema : m.build.result = .error .notParameterSchema := by cbv
  have hself : m'.build.result = .error (.outline .selfReference) := by cbv
  exact ⟨⟨rfl, hschema, rfl⟩, rfl, hself, rfl⟩

end Manifest

end ApiOutline
