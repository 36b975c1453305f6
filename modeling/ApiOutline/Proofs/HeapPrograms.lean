/-
ApiOutline/Proofs/HeapPrograms.lean

What each program of a heap comes to.

Design.  One lemma for each program says what it answers and which heap it leaves, so
that nobody runs it again statement by statement.  Edits at an address do to the
operation there what edits of operations do (`exec_edits`): those before the first bad
one have been written, and nothing else has.  A registration that fails after its copy
was made leaves the copy behind, at an address that nobody has.
-/
import ApiOutline.Proofs.Heap

namespace ApiOutline

namespace Table

variable {κ μ α : Type} [DecidableEq κ]

/-- Reserving an empty table before writing into it makes no difference. -/
theorem put_reserve [DecidableEq μ] (t : Table κ (Table μ α)) (key : κ) (m : μ) (a : α) :
    put (Program.reserve t key []) key m a = put t key m a := by
  rw [Program.reserve]
  rcases hkey : get? t key with - | r
  · have hrow : row t key = [] := by rw [row, hkey, Option.getD_none]
    show put (t.set key []) key m a = put t key m a
    rw [put, put, row_set, if_pos rfl, hrow, set_set]
  · rfl

end Table

namespace Heap

/-! ### Writing -/

@[simp] theorem cells_write_self (h : Heap) (a : Address) (op : Operation) :
    (h.write a op).cells a = op := by
  show Function.update h.cells a op a = op
  rw [Function.update_self]

theorem cells_write_of_ne (h : Heap) {a b : Address} (hne : b ≠ a) (op : Operation) :
    (h.write a op).cells b = h.cells b := by
  show Function.update h.cells a op b = h.cells b
  rw [Function.update_of_ne hne]

@[simp] theorem write_write (h : Heap) (a : Address) (op op' : Operation) :
    (h.write a op).write a op' = h.write a op' := by
  rw [write, write, write, Function.update_idem]

@[simp] theorem write_self (h : Heap) (a : Address) : h.write a (h.cells a) = h := by
  rw [write, Function.update_eq_self]

@[simp] theorem cells_extend_self (h : Heap) (op : Operation) : (h.extend op).cells h.size = op := by
  show Function.update h.cells h.size op h.size = op
  rw [Function.update_self]

theorem cells_extend_of_lt (h : Heap) {a : Address} (ha : a < h.size) (op : Operation) :
    (h.extend op).cells a = h.cells a := by
  show Function.update h.cells h.size op a = h.cells a
  rw [Function.update_of_ne (Nat.ne_of_lt ha)]

/-- What is written at a new address replaces what the address was given out for. -/
theorem write_extend (h : Heap) (op op' : Operation) :
    (h.extend op).write h.size op' = h.extend op' := by
  rw [write, extend, extend, Function.update_idem]

end Heap

namespace Program

variable (a : Address) (h : Heap)

/-! ### Edits -/

@[simp] theorem exec_new (op : Operation) : exec (new op) h = (.ok h.size, h.extend op) := rfl

@[simp] theorem exec_load : exec (load a) h = (.ok (h.cells a), h) := rfl

@[simp] theorem exec_change (f : Operation → Operation) :
    exec (change a f) h = (.ok (), h.write a (f (h.cells a))) := rfl

/-- Declaring parameters one by one, in place, declares them all. -/
theorem exec_declareAll (ps : List Parameter) :
    exec (forM ps fun p =>
        change a fun op => { op with parameters := Parameter.declare op.parameters p }) h =
      (.ok (), h.write a
        { h.cells a with parameters := ps.foldl Parameter.declare (h.cells a).parameters }) := by
  induction ps generalizing h with
  | nil => exact congrArg (Prod.mk _) (h.write_self a).symm
  | cons p ps ih =>
    rw [List.forM_cons, exec_bind_of_ok (exec_change a h _), ih]
    simp

/-- **One edit.**  A good edit writes what the edit of the operation comes to; a bad one writes
nothing. -/
theorem exec_edit (e : Edit) :
    exec (edit a e) h =
      match ((h.cells a).edit e).result with
      | .ok op => (.ok (), h.write a op)
      | .error f => (.error f, h) := by
  cases e with
  | request outline =>
    have hcompute := exec_compute (Body.read outline).result h
    rw [edit, Operation.edit, Traced.result_bind]
    rcases hbody : (Body.read outline).result with f | b
    · rw [hbody] at hcompute
      rw [exec_bind_of_error hcompute]
      rfl
    · rw [hbody] at hcompute
      rw [exec_bind_of_ok hcompute]
      rfl
  | respond code outline =>
    have hcompute := exec_compute (Response.read outline).result h
    rw [edit, Operation.edit, Traced.result_bind]
    rcases hresponse : (Response.read outline).result with f | r
    · rw [hresponse] at hcompute
      rw [exec_bind_of_error hcompute]
      rfl
    · rw [hresponse] at hcompute
      rw [exec_bind_of_ok hcompute]
      rcases hcode : code.written? with - | key <;> rfl
  | declare location ds =>
    have hcompute := exec_compute (Parameter.ofDeclarations location ds) h
    rw [edit, Operation.edit, Traced.result_bind, Traced.result_ofExcept]
    rcases hds : Parameter.ofDeclarations location ds with f | ps
    · rw [hds] at hcompute
      rw [exec_bind_of_error hcompute]
      rfl
    · rw [hds] at hcompute
      rw [exec_bind_of_ok hcompute, exec_declareAll]
      rfl
  | tag name => rfl
  | summarize text => rfl
  | describe text => rfl
  | «deprecate» => rfl
  | secure scheme => rfl

/-- **Edits, one after the other.**  The edits before the first bad one have been written. -/
theorem exec_edits (es : List Edit) :
    exec (forM es (edit a)) h =
      (((h.cells a).editUpTo es).2.result, h.write a ((h.cells a).editUpTo es).1) := by
  induction es generalizing h with
  | nil => exact congrArg (Prod.mk _) (h.write_self a).symm
  | cons e es ih =>
    have hfirst := exec_edit a h e
    rw [List.forM_cons, Operation.editUpTo]
    rcases he : ((h.cells a).edit e).result with f | op
    · rw [he] at hfirst
      rw [exec_bind_of_error hfirst]
      exact congrArg (Prod.mk _) (h.write_self a).symm
    · rw [he] at hfirst
      rw [exec_bind_of_ok hfirst, ih]
      simp

/-- The options are applied in the order of their edits. -/
theorem apply_eq (o : Options) : apply a o = forM o.edits (edit a) := by
  have hoption : ∀ {α : Type} (x : Option α) (f : α → Edit),
      forM (x.toList.map f) (edit a) = forM x fun y => edit a (f y) := by
    intro α x f
    cases x <;> simp
  rw [Options.edits, apply]
  simp only [List.forM_append, hoption, List.forM_map, bind_assoc]
  cases o.deprecated <;> simp

theorem exec_apply (o : Options) :
    exec (apply a o) h =
      (((h.cells a).editUpTo o.edits).2.result, h.write a ((h.cells a).editUpTo o.edits).1) := by
  rw [apply_eq, exec_edits]

/-! ### The document -/

theorem exec_link (r : Route) : exec (link r a) h = (.ok (), h.link r a) := by
  rw [link, exec_bind_of_ok (exec_modify _ h), exec_modify, Heap.link]
  dsimp only
  rw [Table.put_reserve]
  rfl

theorem exec_addComponent (name : String) (c : Component) :
    exec (addComponent name c) h =
      (.ok (), { h with components := Table.put h.components c.kind name c }) := by
  rw [addComponent, exec_bind_of_ok (exec_modify _ h), exec_modify]
  dsimp only
  rw [Table.put_reserve]

/-- A program that first computes goes on if that does well. -/
theorem exec_compute_bind {α β : Type} (x : Except Fault α) (f : α → Program β) :
    exec (compute x >>= f) h =
      match x with
      | .ok v => exec (f v) h
      | .error e => (.error e, h) := by
  have hx := exec_compute x h
  cases x with
  | ok v => exact exec_bind_of_ok hx f
  | error e => exact exec_bind_of_error hx f

end Program

/-! ### Steps -/

namespace Heap

variable (h : Heap)

/-- The heap after a new operation was linked at a route. -/
def opened (name : String) (r : Route) (op : Operation) : Heap :=
  ((h.extend op).link r h.size).keep name ⟨r, h.size⟩

/-- The heap after a copy of an operation was edited and written back. -/
def reopened (name : String) (p : Pointer) (op : Operation) : Heap :=
  ((h.extend op).write p.address op).keep name p

/-- The answer to a component, and the heap with it. -/
def component (name : String) (c : Component) : Except Fault Reply × Heap :=
  (.ok (.reference (c.reference name)),
    { h with components := Table.put h.components c.kind name c })

theorem step_server (url description : Data) :
    h.step (.server url description) =
      match Fault.ofChecked (Server.make url description) with
      | .ok server => (.ok .done, { h with servers := h.servers ++ [server] })
      | .error f => (.error f, h) := by
  rw [step, Program.step, Program.exec_compute_bind]
  cases Fault.ofChecked (Server.make url description) <;> rfl

theorem step_tag (name description : Data) :
    h.step (.tag name description) =
      match Fault.ofChecked (Tag.make name description) with
      | .ok tag => (.ok .done, { h with tags := h.tags ++ [tag] })
      | .error f => (.error f, h) := by
  rw [step, Program.step, Program.exec_compute_bind]
  cases Fault.ofChecked (Tag.make name description) <;> rfl

/-- A scheme is made before it is put in its place. -/
theorem step_security (name : String) (fields : List (String × Data)) :
    h.step (.security name fields) =
      match Fault.ofChecked (SecurityScheme.ofFields (fields.map fun f => (.text f.1, f.2))) with
      | .ok scheme => h.component name (.securityScheme scheme)
      | .error f => (.error f, h) := by
  rw [step, Program.step, Program.exec_compute_bind]
  rcases Fault.ofChecked (SecurityScheme.ofFields _) with f | scheme
  · rfl
  · exact Program.exec_bind_of_ok (Program.exec_addComponent h name _) _

/-- A schema is compiled before it is put in its place. -/
theorem step_schema (name outline : String) :
    h.step (.schema name (.text outline)) =
      match (Shape.compile outline).result.mapError Fault.outline with
      | .ok schema => h.component name (.schema schema)
      | .error f => (.error f, h) := by
  rw [step, Program.step, Program.exec_compute_bind]
  rcases (Shape.compile outline).result.mapError Fault.outline with f | schema
  · rfl
  · exact Program.exec_bind_of_ok (Program.exec_addComponent h name _) _

/-- A registration that is refused has at most given out an address. -/
theorem step_register (name template method : String) (options : Option Data) :
    h.step (.register name template method options) =
      match Method.read method, Session.readOptions options with
      | .error f, _ => (.error f, h)
      | .ok _, .error f => (.error f, h)
      | .ok m, .ok o =>
        let r := Route.of template m
        match h.address? r with
        | none =>
          let (op, run) := (Operation.ofTemplate template).editUpTo o.edits
          match run.result with
          | .error f => (.error f, h.extend op)
          | .ok _ => (.ok (.opened r), h.opened name r op)
        | some a =>
          let (op, run) := (h.cells a).editUpTo o.edits
          match run.result with
          | .error f => (.error f, h.extend op)
          | .ok _ => (.ok (.opened r), h.reopened name ⟨r, a⟩ op) := by
  rw [step, Program.step, Program.register, Program.exec_compute_bind]
  rcases Method.read method with f | m
  · rfl
  dsimp only
  rw [Program.exec_compute_bind]
  rcases Session.readOptions options with f | o
  · rfl
  dsimp only
  rw [Program.exec_bind_of_ok (Program.exec_get h)]
  -- edits at the new address are edits of the new object
  have hedits : ∀ op : Operation, Program.exec (Program.apply h.size o) (h.extend op) =
      ((op.editUpTo o.edits).2.result, h.extend (op.editUpTo o.edits).1) := by
    intro op
    rw [Program.exec_apply, cells_extend_self, write_extend]
  rcases h.address? (Route.of template m) with - | a
  · dsimp only
    have happly := hedits (Operation.ofTemplate template)
    rw [Program.exec_bind_of_ok (Program.exec_new h _)]
    rcases hrun : ((Operation.ofTemplate template).editUpTo o.edits).2.result with f | u
    · rw [hrun] at happly
      rw [Program.exec_bind_of_error happly]
    · rw [hrun] at happly
      rw [Program.exec_bind_of_ok happly, Program.exec_bind_of_ok (Program.exec_link ..)]
      rfl
  · dsimp only
    have happly := hedits (h.cells a)
    rw [Program.exec_bind_of_ok (Program.exec_load a h),
      Program.exec_bind_of_ok (Program.exec_new h _)]
    rcases hrun : ((h.cells a).editUpTo o.edits).2.result with f | u
    · rw [hrun] at happly
      rw [Program.exec_bind_of_error happly]
    · rw [hrun] at happly
      rw [Program.exec_bind_of_ok happly, Program.exec_bind_of_ok (Program.exec_load ..),
        cells_extend_self]
      rfl

/-- The heap is as before, or an address was given out. -/
def Spares (h h' : Heap) : Prop := h' = h ∨ ∃ op, h' = h.extend op

/-- **Registration.**  It is refused, and spares what there is; or a route without operation gets a
new one; or the operation of a route is written anew. -/
theorem step_register_cases (name template method : String) (options : Option Data) :
    let st := Step.register name template method options
    (∃ f, (h.step st).1 = .error f ∧ h.Spares (h.step st).2) ∨
      (∃ r op, h.address? r = none ∧ h.step st = (.ok (.opened r), h.opened name r op)) ∨
        ∃ p op, h.address? p.route = some p.address ∧
          h.step st = (.ok (.opened p.route), h.reopened name p op) := by
  dsimp only
  rw [step_register]
  rcases Method.read method with f | m
  · exact .inl ⟨f, rfl, .inl rfl⟩
  rcases Session.readOptions options with f | o
  · exact .inl ⟨f, rfl, .inl rfl⟩
  dsimp only
  rcases ha : h.address? (Route.of template m) with - | a
  · dsimp only
    rcases ((Operation.ofTemplate template).editUpTo o.edits).2.result with f | u
    · exact .inl ⟨f, rfl, .inr ⟨_, rfl⟩⟩
    · exact .inr (.inl ⟨_, _, ha, rfl⟩)
  · dsimp only
    rcases ((h.cells a).editUpTo o.edits).2.result with f | u
    · exact .inl ⟨f, rfl, .inr ⟨_, rfl⟩⟩
    · exact .inr (.inr ⟨⟨Route.of template m, a⟩, _, ha, rfl⟩)

theorem step_edit {name : String} {p : Pointer} (hp : Table.get? h.handles name = some p)
    (e : Edit) :
    h.step (.change name (.edit e)) =
      match ((h.cells p.address).edit e).result with
      | .ok op => (.ok .same, h.write p.address op)
      | .error f => (.error f, h) := by
  have hedit := Program.exec_edit p.address h e
  rw [step, Program.step, Program.exec_bind_of_ok (Program.exec_get h), hp]
  dsimp only
  rw [Program.changeThrough]
  rcases hop : ((h.cells p.address).edit e).result with f | op
  · rw [hop] at hedit
    rw [Program.exec_bind_of_error hedit]
  · rw [hop] at hedit
    rw [Program.exec_bind_of_ok hedit]
    rfl

theorem step_apply {name : String} {p : Pointer} (hp : Table.get? h.handles name = some p)
    (options : Data) :
    h.step (.change name (.apply options)) =
      match Fault.ofChecked (Options.check options) with
      | .error f => (.error f, h)
      | .ok o =>
        let (op, run) := (h.cells p.address).editUpTo o.edits
        (run.result.map fun _ => Reply.same, h.write p.address op) := by
  rw [step, Program.step, Program.exec_bind_of_ok (Program.exec_get h), hp]
  dsimp only
  rw [Program.changeThrough, Program.exec_compute_bind]
  rcases Fault.ofChecked (Options.check options) with f | o
  · rfl
  dsimp only
  have happly := Program.exec_apply p.address h o
  rcases hrun : ((h.cells p.address).editUpTo o.edits).2.result with f | u
  · rw [hrun] at happly
    rw [Program.exec_bind_of_error happly]
    rfl
  · rw [hrun] at happly
    rw [Program.exec_bind_of_ok happly]
    rfl

theorem step_unlink {name : String} {p : Pointer} (hp : Table.get? h.handles name = some p) :
    h.step (.change name .remove) = (.ok .done, h.unlink p.route) := by
  rw [step, Program.step, Program.exec_bind_of_ok (Program.exec_get h), hp]
  rfl

theorem step_change_unknown {name : String} (hname : Table.get? h.handles name = none)
    (c : Change) : h.step (.change name c) = (.error (.unknownHandle name), h) := by
  rw [step, Program.step, Program.exec_bind_of_ok (Program.exec_get h), hname]
  rfl

/-- The heap without a path, without the operations that carry a tag, or without both. -/
def removal (template tag : Option String) : Heap :=
  let h := match template with
    | some t => h.unlinkPath (Template.keyOf t)
    | none => h
  match tag with
  | some t => h.unlinkTag t
  | none => h

theorem step_remove (template tag : Option String) :
    h.step (.remove template tag) = (.ok .done, h.removal template tag) := by
  cases template <;> cases tag <;> rfl

theorem step_removeOperation (key method : String) :
    h.step (.removeOperation key method) =
      (.ok .done, match Method.named? method with
        | some m => h.unlink ⟨key, m⟩
        | none => h) := by
  rw [step, Program.step]
  cases Method.named? method <;> rfl

/-- The heap without anything that is forgotten by a reset. -/
def reset : Heap := { h with paths := [], components := [], tags := [], servers := [] }

theorem step_reset : h.step .reset = (.ok .done, h.reset) := rfl

end Heap

end ApiOutline
