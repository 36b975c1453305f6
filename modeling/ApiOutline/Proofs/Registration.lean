/-
ApiOutline/Proofs/Registration.lean

What registering routes reads, apart from what it writes.

Design.  An edit reads its outlines and declarations before it changes anything, and does
not look at the operation while it does so.  So an edit is refused by every operation with
one fault, or it is a function of operations (`Operation.result_edit`).  The same is true
of a list of edits, and then of the entry of a route: it is read to a registration, which
is entered into documents.  Registering routes is reading all the entries first and
entering the registrations then (`Manifest.result_addRoutes`), and the operation of a route
depends on the registrations of this route only (`Document.operation?_foldl_enter`).
-/
import ApiOutline.Manifest.Basic
import ApiOutline.Proofs.History

namespace ApiOutline

/-! ### Edits -/

namespace Edit

/-- What an edit makes of operations, or the fault with which they refuse it. -/
def read : Edit → Except Fault (Operation → Operation)
  | .request outline =>
    (Body.read outline).result.map fun b op => op.give (.requestBody b)
  | .respond code outline => do
    let r ← (Response.read outline).result
    match code.written? with
    | some key => pure fun op => { op with responses := op.responses.set key r }
    | none => throw .longCode
  | .declare location ds =>
    (Parameter.ofDeclarations location ds).map fun ps op =>
      { op with parameters := ps.foldl Parameter.declare op.parameters }
  | .tag name => pure fun op => op.give (.tag name)
  | .summarize text => pure fun op => op.give (.summary text)
  | .describe text => pure fun op => { op with description := text }
  | .deprecate => pure fun op => op.give .deprecated
  | .secure scheme => pure fun op => op.give (.security scheme)

/-- What edits make of operations, one after the other, or the fault of the first bad one. -/
def readAll : List Edit → Except Fault (Operation → Operation)
  | [] => pure id
  | e :: es => do
    let f ← e.read
    let g ← readAll es
    pure (g ∘ f)

end Edit

/-- An edit is read, and what was read is done to the operation. -/
theorem Operation.result_edit (op : Operation) (e : Edit) :
    (op.edit e).result = e.read.map fun f => f op := by
  cases e with
  | request outline =>
    rw [edit, Edit.read, Traced.result_bind]
    rcases (Body.read outline).result with f | b <;> rfl
  | respond code outline =>
    rw [edit, Edit.read, Traced.result_bind]
    rcases (Response.read outline).result with f | r
    · rfl
    · simp only [bind, Except.bind]
      rcases code.written? with - | key <;> rfl
  | declare location ds =>
    rw [edit, Edit.read, Traced.result_bind, Traced.result_ofExcept]
    rcases Parameter.ofDeclarations location ds with f | ps <;> rfl
  | tag name => rfl
  | summarize text => rfl
  | describe text => rfl
  | «deprecate» => rfl
  | secure scheme => rfl

/-- Edits are read, and what was read is done to the operation. -/
theorem Operation.result_editAll_read (op : Operation) (es : List Edit) :
    (op.editAll es).result = (Edit.readAll es).map fun f => f op := by
  induction es generalizing op with
  | nil => rfl
  | cons e es ih =>
    rw [editAll, Traced.result_bind, result_edit, Edit.readAll]
    rcases e.read with f | g
    · rfl
    · show ((g op).editAll es).result = _
      rw [ih]
      rcases Edit.readAll es with f | g' <;> rfl

/-! ### Registrations -/

/-- What the entry of a route comes to: the route, the operation that it has at first, and what is
made of the operation that it has. -/
structure Registration where
  route : Route
  opening : Operation
  change : Operation → Operation

/-- The registration that an entry describes, or the fault of its method or its first bad edit. -/
def RouteEntry.read (e : RouteEntry) : Except Fault Registration := do
  let m ← Method.read e.method
  let f ← Edit.readAll e.options.edits
  pure ⟨Route.of e.path m, Operation.ofTemplate e.path, f⟩

namespace Document

/-- The document after a registration. -/
def enter (doc : Document) (g : Registration) : Document :=
  doc.store g.route (g.change ((doc.operation? g.route).getD g.opening))

/-- The edits of a registration are read before anything is entered. -/
theorem result_register_read (doc : Document) (template : String) (m : Method) (es : List Edit) :
    (doc.register template m es).result =
      (Edit.readAll es).map fun f =>
        doc.enter ⟨Route.of template m, Operation.ofTemplate template, f⟩ := by
  rw [result_register, Operation.result_editAll_read]
  rcases Edit.readAll es with f | g <;> rfl

/-- Entering a registration puts an operation under its route, and under no other. -/
theorem operation?_enter (doc : Document) (g : Registration) (r : Route) :
    (doc.enter g).operation? r =
      if g.route = r then some (g.change ((doc.operation? r).getD g.opening))
      else doc.operation? r := by
  rw [enter, operation?_store]
  by_cases hr : g.route = r
  · rw [if_pos hr, if_pos hr, hr]
  · rw [if_neg hr, if_neg hr]

/-- The operation of a route after registrations is what those of the route make of it. -/
theorem operation?_foldl_enter (doc : Document) (gs : List Registration) (r : Route) :
    (gs.foldl enter doc).operation? r =
      (gs.filter fun g => g.route = r).foldl
        (fun op g => some (g.change (op.getD g.opening))) (doc.operation? r) := by
  induction gs generalizing doc with
  | nil => rfl
  | cons g gs ih =>
    rw [List.foldl_cons, ih, operation?_enter]
    by_cases hr : g.route = r
    · simp [hr]
    · simp [hr]

end Document

/-- **Reading first.**  Registering routes is reading all entries, and then entering what was
read. -/
theorem Manifest.result_addRoutes (doc : Document) (es : List RouteEntry) :
    (Manifest.addRoutes doc es).result =
      (es.mapM RouteEntry.read).map fun gs => gs.foldl Document.enter doc := by
  induction es generalizing doc with
  | nil => rfl
  | cons e es ih =>
    rw [addRoutes, List.mapM_cons, RouteEntry.read]
    simp only [Traced.result_bind, Traced.result_ofExcept, Document.result_register_read]
    rcases Method.read e.method with f | m
    · rfl
    rcases Edit.readAll e.options.edits with f | g
    · rfl
    · show (addRoutes (doc.enter _) es).result = _
      rw [ih]
      rcases es.mapM RouteEntry.read with f | gs <;> rfl

end ApiOutline
