/-
ApiOutline/Proofs/RegisterAgain.lean

Registering a route a second time, with the same options.

Design.  The second registration edits the operation that the first one stored.  Its edits are
good, since an edit does not look at the operation when it is read; and they change nothing.
For each part of an operation that is so on grounds of its own (`Operation.amended_amended`):
a table whose entries are written again keeps its order, a description is the last that was
given, and parameters that are declared again are taken out and put back behind the others,
where they had been put before.

Main result: `Heap.run_registers_again`.
-/
import ApiOutline.Proofs.Declaration
import ApiOutline.Proofs.Registration
import ApiOutline.Proofs.StoredKeys

namespace ApiOutline

/-! ### Operations -/

namespace Operation

variable {op old : Operation}

/-- Amending an operation by the same edits again changes nothing. -/
theorem amended_amended (h : op.Valid) (es : List Edit) :
    (op.amended es).amended es = op.amended es := by
  have hparameters := Parameter.foldl_declare_foldl_declare op.parameters (es.flatMap Edit.declared)
  have hresponses := Table.setAll_setAll h.responses (es.flatMap Edit.responded)
  have hdetails := Table.setAll_setAll h.nodup ((es.flatMap Edit.given).map Detail.entry)
  have hdescription : ∀ text? : Option String,
      text?.getD (text?.getD op.description) = text?.getD op.description := by
    rintro (- | text) <;> rfl
  simp only [amended, hparameters, hresponses, hdetails, hdescription]

/-- Edits that were good once are good again, and change nothing. -/
theorem editAll_again (h : old.Valid) {es : List Edit} (he : (old.editAll es).result = .ok op) :
    (op.editAll es).result = .ok op := by
  have hamended : op = old.amended es := editAll_eq_amended he
  rw [result_editAll_read] at he
  rcases hread : Edit.readAll es with f | g
  · rw [hread] at he
    cases he
  · -- what was read can be done to any operation
    have hagain : (op.editAll es).result = .ok (g op) := by
      rw [result_editAll_read, hread]
      rfl
    rw [hagain, editAll_eq_amended hagain, hamended, amended_amended h]

end Operation

/-! ### Documents -/

/-- Registering a route once more, from any template with its key, is registering nothing. -/
theorem Document.Valid.register_again {doc doc' : Document} (h : doc.Valid) {template template' : String}
    (hkey : Template.keyOf template' = Template.keyOf template) {m : Method} {es : List Edit}
    (hr : (doc.register template m es).result = .ok doc') :
    (doc'.register template' m es).result = .ok doc' := by
  obtain ⟨old, op, rfl, hop, hold⟩ := Document.register_cases hr
  have hroute : Route.of template' m = Route.of template m := congrArg (Route.mk · m) hkey
  have hvalid : old.Valid := by
    rw [hold]
    rcases ho : doc.operation? (Route.of template m) with - | before
    · exact .ofTemplate template
    · exact h.operation ho
  have hstored : (doc.store (Route.of template m) op).operation? (Route.of template m) = some op :=
    Document.operation?_store_self doc _ op
  -- the second time, the operation that was stored is edited
  rw [Document.result_register, hroute, hstored, Option.getD_some, Operation.editAll_again hvalid hop]
  exact congrArg Except.ok (Document.store_of_operation?_eq_some hstored)

/-! ### Sessions -/

namespace Session

variable {s : Session} {name name' template template' method method' : String}
  {options : Option Data} {r : Route}

/-- A registration whose method, options and edits are all good enters a document. -/
theorem step_register_of_ok {m : Method} {o : Options} {doc : Document}
    (hm : Method.read method = .ok m) (ho : readOptions options = .ok o)
    (hdoc : (s.document.register template m o.edits).result = .ok doc) :
    let run := s.step (.register name template method options)
    run.2.result = .ok (.opened (Route.of template m)) ∧
      run.1 = s.hold name (Route.of template m) doc := by
  rw [step, after]
  simp only [Traced.result_bind, Traced.result_ofExcept, hm, ho]
  simp only [Except.bind, bind, hdoc]
  exact ⟨rfl, rfl⟩

/-- Registering a route once more answers the same and leaves the document. -/
theorem Valid.register_again (h : s.Valid)
    (hkey : Template.keyOf template' = Template.keyOf template)
    (hmethod : Text.lowerCase method'.toList = Text.lowerCase method.toList) :
    let once := s.step (.register name template method options)
    let twice := once.1.step (.register name' template' method' options)
    once.2.result = .ok (.opened r) →
      twice.2.result = .ok (.opened r) ∧ twice.1.document = once.1.document := by
  intro once twice hr
  have hread : Method.read method' = Method.read method := by rw [Method.read, Method.read, hmethod]
  obtain ⟨m, o, old, op, hm, ho, rfl, hold, hop, hsession⟩ := step_register_opened hr
  have hroute : Route.of template' m = Route.of template m := congrArg (Route.mk · m) hkey
  have hfirst : (s.document.register template m o.edits).result =
      .ok (s.document.store (Route.of template m) op) := by
    rw [Document.result_register, ← hold, hop]
    rfl
  have hdocument : once.1.document = s.document.store (Route.of template m) op :=
    congrArg Session.document hsession
  have hsecond : (once.1.document.register template' m o.edits).result = .ok once.1.document := by
    rw [hdocument]
    exact h.document.register_again hkey hfirst
  -- the second time, too, the method, the options and the edits are good
  obtain ⟨hagain, hsession⟩ := step_register_of_ok (hread.trans hm) ho hsecond
  have hleft : twice.1.document =
      (once.1.hold name' (Route.of template' m) once.1.document).document :=
    congrArg Session.document hsession
  exact ⟨hroute ▸ hagain, hleft⟩

end Session

/-! ### Heaps -/

namespace Heap

/-- **Registering again.**  In every run, if a route is registered with options, then registering it
again with them, from any template with its key and with its method in letters of either case, opens
it too and leaves the document as it is, the order of everything included. -/
theorem run_registers_again (title version : String) (steps : List Step)
    (name name' template template' method method' : String) (options : Option Data) (r : Route)
    (hkey : Template.keyOf template' = Template.keyOf template)
    (hmethod : Text.lowerCase method'.toList = Text.lowerCase method.toList)
    (hr : (((Session.start title version).run steps).step
      (.register name template method options)).2.result = .ok (.opened r)) :
    let first := Step.register name template method options
    let second := Step.register name' template' method' options
    let s := ((Session.start title version).run steps).step first
    let h := ((Heap.start title version).run steps).step first
    ((s.1.step second).2.result = .ok (.opened r) ∧ (s.1.step second).1.document = s.1.document) ∧
      h.1 = .ok (.opened r) ∧ h.2.Mirrors s.1 ∧
        (h.2.step second).1 = .ok (.opened r) ∧ (h.2.step second).2.document = h.2.document := by
  intro first second s h
  have hstart := Session.Valid.start title version
  have hvalid := hstart.run steps
  have hagain : (s.1.step second).2.result = .ok (.opened r) ∧
      (s.1.step second).1.document = s.1.document := hvalid.register_again hkey hmethod hr
  obtain ⟨hshows, hanswer⟩ := ((Shows.start title version).run hstart steps).step hvalid first
  obtain ⟨hshows', hanswer'⟩ := hshows.step (hvalid.step first) second
  refine ⟨hagain, hanswer.trans hr, hshows.mirrors (hvalid.step first), ?_, ?_⟩
  · exact hanswer'.trans hagain.1
  · exact hshows'.document.trans (hagain.2.trans hshows.document.symm)

/-- Options whose query and header overlap, with a path parameter declared again, and with a code
given as a number and as a text. -/
def overlapping : Data :=
  .map
    [(.text "query", .text "b, a, b:?"),
      (.text "header", .list
        [.map [(.text "name", .text "id"), (.text "in", .text "path")],
          .map [(.text "name", .text "a"), (.text "in", .text "query")]]),
      (.text "responses", .map
        [(.integer 200, .text ""), (.text "404", .text "#/e"), (.text "200", .text "#/a")])]

/-- Overlapping options, given twice for a route that was there before. -/
theorem registers_again_overlapping :
    let steps := [Step.register "z" "/x/{id}" "get" none]
    let s := ((Session.start "" "").run steps).step
      (.register "a" "/x/{id:7}" "GeT" (some overlapping))
    let again := s.1.step (.register "b" "/x/{id:8}" "gEt" (some overlapping))
    let r : Route := ⟨"/x/{id}", .get⟩
    (s.1.document.operation? r).map (fun op => op.parameters.map Parameter.slot) =
        some [("b", "query"), ("id", "path"), ("a", "query")] ∧
      (s.1.document.operation? r).map (fun op => Table.keys op.responses) = some ["200", "404"] ∧
      s.2.result = .ok (.opened r) ∧ again.2.result = .ok (.opened r) ∧
        again.1.document = s.1.document := by
  have hr : (((Session.start "" "").run [.register "z" "/x/{id}" "get" none]).step
      (.register "a" "/x/{id:7}" "GeT" (some overlapping))).2.result =
        .ok (.opened ⟨"/x/{id}", .get⟩) := by
    decide +kernel
  have hagain := run_registers_again "" "" [.register "z" "/x/{id}" "get" none] "a" "b"
    "/x/{id:7}" "/x/{id:8}" "GeT" "gEt" (some overlapping) _ (by decide) (by decide) hr
  dsimp only at hagain ⊢
  exact ⟨by decide +kernel, by decide +kernel, hr, hagain.1⟩

end Heap

end ApiOutline
