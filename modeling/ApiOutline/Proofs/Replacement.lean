/-
ApiOutline/Proofs/Replacement.lean

What calls that declare parameters leave.

Design.  A call declares parameters in a location, or applies options, those of query and
header among them.  Whether it is refused does not depend on the operation, and so what it
converts can be told before it is made (`Call.convert`).  A declaration converts all of its
specs before it writes one.  Options are written one by one, so that options which are refused
leave what those before the first bad one have converted (`Call.contributed`).  In a sequence
of calls, all that counts is the list of what they contribute; how it is cut into calls does not.

Main result: `calls_replace_parameters`.
-/
import ApiOutline.Proofs.Declaration
import ApiOutline.Proofs.Registration
import ApiOutline.Proofs.StoredKeys
import Mathlib.Data.List.TakeWhile

namespace ApiOutline

/-! ### Edits up to a bad one -/

/-- The edit is good, whatever the operation. -/
def Edit.isGood (e : Edit) : Bool := e.read.isOk

theorem Edit.isGood_iff {e : Edit} : e.isGood = true ↔ ∃ f, e.read = .ok f := by
  rw [isGood]
  rcases e.read with f | f <;> simp [Except.isOk, Except.toBool]

/-- Edits that are read have nothing bad among them. -/
theorem Edit.isGood_of_readAll {es : List Edit} {f : Operation → Operation}
    (h : Edit.readAll es = .ok f) : ∀ e ∈ es, e.isGood = true := by
  induction es generalizing f with
  | nil => simp
  | cons e es ih =>
    rw [readAll] at h
    rcases he : e.read with f | g
    · rw [he] at h
      cases h
    rcases hes : Edit.readAll es with f | g'
    · rw [he, hes] at h
      cases h
    · exact List.forall_mem_cons.mpr ⟨isGood_iff.mpr ⟨g, he⟩, ih hes⟩

namespace Operation

/-- Edits that stop at a bad one declare the parameters of those before it. -/
theorem parameters_editUpTo (op : Operation) (es : List Edit) :
    (op.editUpTo es).1.parameters =
      ((es.takeWhile Edit.isGood).flatMap Edit.declared).foldl Parameter.declare op.parameters := by
  induction es generalizing op with
  | nil => rfl
  | cons e es ih =>
    have hresult := op.result_edit e
    rw [editUpTo, List.takeWhile_cons, Edit.isGood]
    rcases hread : e.read with f | g
    · -- the first edit is bad: no other is made
      rw [hread] at hresult
      rw [hresult]
      rfl
    · rw [hread] at hresult
      rw [hresult]
      show ((g op).editUpTo es).1.parameters = _
      rw [ih, parameters_edit hresult]
      simp [Except.isOk, Except.toBool]

/-- Edits are refused with the fault of the first bad one. -/
theorem result_editUpTo (op : Operation) (es : List Edit) :
    (op.editUpTo es).2.result = (Edit.readAll es).map fun _ => () := by
  have hresult := op.result_editAll_read es
  rw [result_editAll] at hresult
  rcases hrun : (op.editUpTo es).2.result with f | u <;>
    rcases hread : Edit.readAll es with f' | g <;> rw [hrun, hread] at hresult
  · exact congrArg Except.error (Except.error.inj hresult)
  · cases hresult
  · cases hresult
  · rfl

end Operation

/-! ### Calls -/

namespace Options

/-- The parameters to which the specs of an option are converted, if it is given. -/
def convertIn (location : String) : Option Data → Except Fault (List Parameter)
  | none => .ok []
  | some spec => Parameter.ofDeclarations location (Parameter.split spec)

/-- The parameters to which the specs in options are converted, those of query first; or the fault
with which the options are refused. -/
def convert (o : Options) : Except Fault (List Parameter) := do
  let _ ← Edit.readAll o.edits
  let query ← convertIn "query" o.query
  let header ← convertIn "header" o.header
  return query ++ header

/-- An option that is good is converted to what its edit declares. -/
theorem convertIn_eq_ok {location : String} {option : Option Data}
    (h : ∀ spec ∈ option, (Edit.declare location (Parameter.split spec)).isGood) :
    convertIn location option = .ok (declaredIn location option) := by
  rcases option with - | spec
  · rfl
  obtain ⟨f, hf⟩ := Edit.isGood_iff.mp (h spec rfl)
  rw [Edit.read] at hf
  rw [convertIn, declaredIn, Option.toList_some, List.flatMap_singleton, Edit.declared]
  rcases hps : Parameter.ofDeclarations location (Parameter.split spec) with f | ps
  · rw [hps] at hf
    cases hf
  · rfl

/-- Options are converted to what all their edits declare, if these are good. -/
theorem convert_eq (o : Options) :
    o.convert = (Edit.readAll o.edits).map fun _ => o.edits.flatMap Edit.declared := by
  rw [convert]
  rcases hread : Edit.readAll o.edits with f | g
  · rfl
  -- all options are good, and those of query and header among them
  have hgood := Edit.isGood_of_readAll hread
  have hquery : convertIn "query" o.query = .ok (declaredIn "query" o.query) := by
    refine convertIn_eq_ok fun spec hspec => hgood _ ?_
    simp [edits, Option.mem_def.mp hspec]
  have hheader : convertIn "header" o.header = .ok (declaredIn "header" o.header) := by
    refine convertIn_eq_ok fun spec hspec => hgood _ ?_
    simp [edits, Option.mem_def.mp hspec]
  rw [hquery, hheader, declared_edits]
  rfl

end Options

/-- A call, through a handle, that can declare parameters. -/
inductive Call where
  /-- declares the parameters of a spec in a location, query or header -/
  | declare (location : String) (spec : Data)
  /-- applies options, each of query and header among them or not -/
  | apply (options : Data)
deriving Repr

namespace Call

/-- The change that a call asks for. -/
def change : Call → Change
  | declare location spec => .edit (.declare location (Parameter.split spec))
  | apply options => .apply options

/-- The step that makes a call through the handle with a name. -/
def step (name : String) (c : Call) : Step := .change name c.change

/-- The parameters to which the specs of a call are converted, in the order in which they are
processed; or the fault with which the call is refused. -/
def convert : Call → Except Fault (List Parameter)
  | declare location spec => Parameter.ofDeclarations location (Parameter.split spec)
  | apply options => do
    let o ← Fault.ofChecked (Options.check options)
    o.convert

/-- The parameters that a call which is refused has converted before: those of the options that
come before the first bad one. -/
def leftover : Call → List Parameter
  | declare _ _ => []
  | apply options =>
    match Options.check options with
    | .accepted o => (o.edits.takeWhile Edit.isGood).flatMap Edit.declared
    | .refused _ => []

/-- What a call contributes to the parameters of an operation. -/
def contributed (c : Call) : List Parameter :=
  match c.convert with
  | .ok ps => ps
  | .error _ => c.leftover

variable {options : Data} {o : Options}

theorem convert_apply (h : Options.check options = .accepted o) :
    (apply options).convert = o.convert := by
  rw [convert, h]
  rfl

/-- Options contribute what those before the first bad one declare, whether there is one or not. -/
theorem contributed_apply (h : Options.check options = .accepted o) :
    (apply options).contributed = (o.edits.takeWhile Edit.isGood).flatMap Edit.declared := by
  rw [contributed, convert_apply h, o.convert_eq]
  rcases hread : Edit.readAll o.edits with f | g
  · simp only [Except.map, leftover, h]
  · -- no option is bad, so that all come before the first bad one
    have hgood : o.edits.takeWhile Edit.isGood = o.edits :=
      List.takeWhile_eq_self_iff.mpr (Edit.isGood_of_readAll hread)
    rw [hgood]
    rfl

end Call

/-! ### Sessions -/

namespace Session

variable {s : Session} {handle : Handle} {op : Operation} {name : String}

/-- A handle has the operation that is put in the place of the one it had. -/
theorem operation?_store (hop : s.operation? handle = some op) (op' : Operation) :
    (s.store handle op').operation? handle = some op' := by
  obtain ⟨route, - | slot⟩ := handle
  · exact Document.operation?_store_self s.document route op'
  · obtain ⟨hslot, -⟩ := List.getElem?_eq_some_iff.mp hop
    show (s.archive.set slot op')[slot]? = some op'
    rw [List.getElem?_set_self hslot]

theorem handles_store (s : Session) (handle : Handle) (op : Operation) :
    (s.store handle op).handles = s.handles := by
  rw [store]
  split <;> rfl

/-- A session in which a handle has an operation with these parameters, and which has the handles
of another session. -/
structure Reaches (s s' : Session) (handle : Handle) (ps : List Parameter) : Prop where
  handles : s'.handles = s.handles
  operation : ∃ op, s'.operation? handle = some op ∧ op.parameters = ps

theorem Reaches.store (hop : s.operation? handle = some op) (op' : Operation) :
    s.Reaches (s.store handle op') handle op'.parameters :=
  ⟨s.handles_store handle op', op', operation?_store hop op', rfl⟩

/-- One call declares what it contributes, and is refused if it cannot be converted. -/
theorem step_call (hop : s.operation? handle = some op)
    (hheld : Table.get? s.handles name = some handle) (c : Call) :
    let called := s.step (c.step name)
    called.2.result = c.convert.map (fun _ => Reply.same) ∧
      s.Reaches called.1 handle (c.contributed.foldl Parameter.declare op.parameters) := by
  have hstep : s.step (c.step name) = s.change handle c.change := by
    rw [Call.step, Session.step, hheld]
  rw [hstep]
  cases c with
  | declare location spec =>
    dsimp only [Call.change, Call.contributed, Call.convert, Call.leftover]
    have hresult := op.result_edit (.declare location (Parameter.split spec))
    rw [change, hop]
    dsimp only
    rw [after, hresult, Edit.read]
    -- all specs are converted before the operation is written
    rcases Parameter.ofDeclarations location (Parameter.split spec) with f | ps
    · exact ⟨rfl, rfl, op, hop, rfl⟩
    · exact ⟨rfl, .store hop _⟩
  | apply options =>
    dsimp only [Call.change]
    rw [change, hop]
    rcases hcheck : Options.check options with o | places
    · have hanswer : ((fun _ => Reply.same) <$> (op.editUpTo o.edits).2).result =
          o.convert.map fun _ => Reply.same := by
        rw [Traced.result_map, op.result_editUpTo, o.convert_eq]
        rcases Edit.readAll o.edits with f | g <;> rfl
      rw [Call.convert_apply hcheck, Call.contributed_apply hcheck, ← op.parameters_editUpTo]
      exact ⟨hanswer, .store hop _⟩
    · dsimp only [Call.contributed, Call.convert, Call.leftover]
      rw [hcheck]
      exact ⟨rfl, rfl, op, hop, rfl⟩

/-- Calls, one after the other, declare what they contribute. -/
theorem run_calls (hop : s.operation? handle = some op) (calls : List (String × Call))
    (hheld : ∀ c ∈ calls, Table.get? s.handles c.1 = some handle) :
    s.Reaches (s.run (calls.map fun c => c.2.step c.1)) handle
      ((calls.flatMap fun c => c.2.contributed).foldl Parameter.declare op.parameters) := by
  induction calls generalizing s op with
  | nil => exact ⟨rfl, op, hop, rfl⟩
  | cons c calls ih =>
    -- a call leaves the handles, so that the next one goes to the operation that it left
    obtain ⟨hc, hheld⟩ := List.forall_mem_cons.mp hheld
    obtain ⟨-, hhandles, next, hnext, hparameters⟩ := step_call hop hc c.2
    rw [← hhandles] at hheld
    have hrest := ih hnext hheld
    rw [List.flatMap_cons, List.foldl_append, ← hparameters]
    exact ⟨hrest.handles.trans hhandles, hrest.operation⟩

end Session

/-- **Replacement.**  However specs are grouped into calls through handles to one operation, and
whether they are texts or lists: in the end there are the parameters whose slots no converted one
takes, in their order, and then the converted ones that are not converted again later.  A call that
is refused contributes nothing, except that options which are applied contribute what those before
the first bad one have converted. -/
theorem calls_replace_parameters (s : Session) (handle : Handle) (op : Operation)
    (calls : List (String × Call)) (hop : s.operation? handle = some op)
    (hheld : ∀ c ∈ calls, Table.get? s.handles c.1 = some handle) :
    let steps (cs : List (String × Call)) := cs.map fun c => c.2.step c.1
    let converted := calls.flatMap fun c => c.2.contributed
    (∃ op', (s.run (steps calls)).operation? handle = some op' ∧
      op'.parameters = (op.parameters.filter fun p => p.slot ∉ converted.map Parameter.slot) ++
        Parameter.lasting converted) ∧
      ∀ before c after, calls = before ++ c :: after →
        ((s.run (steps before)).step (c.2.step c.1)).2.result =
          c.2.convert.map fun _ => Reply.same := by
  intro steps converted
  constructor
  · obtain ⟨op', hop', hparameters⟩ := (Session.run_calls hop calls hheld).operation
    exact ⟨op', hop', hparameters.trans (Parameter.foldl_declare_eq _ _)⟩
  · rintro before c after rfl
    obtain ⟨hbefore, hc, -⟩ := by
      simpa only [List.forall_mem_append, List.forall_mem_cons] using hheld
    obtain ⟨hhandles, next, hnext, -⟩ := Session.run_calls hop before hbefore
    rw [← hhandles] at hc
    exact (Session.step_call hnext hc c.2).1

/-- Two handles to one operation: a text that names a parameter twice, a list with a mapping that
has a location of its own, and options that are refused. -/
theorem calls_replace_parameters_regrouped :
    let s := (Session.start "" "").run
      [.register "b" "/x/{id:7}" "get" none, .register "c" "/x/{id}" "get" none]
    let handle : Handle := ⟨⟨"/x/{id}", .get⟩, .live⟩
    let calls := [("b", Call.declare "query" (.text "a, b:i:1, a:?")),
      ("c", .declare "header" (.list [.map [(.text "name", .text "a"), (.text "in", .text "query")],
        .text "id"])),
      ("b", .apply (.map [(.text "query", .text "b"), (.text "header", .list [.map []])]))]
    ∃ op, (s.run (calls.map fun c => c.2.step c.1)).operation? handle = some op ∧
      op.parameters.map Parameter.slot =
        [("id", "path"), ("a", "query"), ("id", "header"), ("b", "query")] := by
  intro s handle calls
  have hheld : ∀ c ∈ calls, Table.get? s.handles c.1 = some handle := by
    simp only [calls, List.forall_mem_cons]
    exact ⟨rfl, rfl, rfl, List.forall_mem_nil _⟩
  obtain ⟨op, hop, hparameters⟩ :=
    (calls_replace_parameters s handle (Operation.ofTemplate "/x/{id:7}") calls rfl hheld).1
  refine ⟨op, hop, ?_⟩
  rw [hparameters]
  rfl

/-- Options whose header has no name are refused, and the parameter of their query stays. -/
theorem refused_options_declare :
    let s := (Session.start "" "").run [.register "b" "/x" "get" none]
    let handle : Handle := ⟨⟨"/x", .get⟩, .live⟩
    let call := Call.apply (.map [(.text "query", .text "a"), (.text "header", .list [.map []])])
    let called := s.step (call.step "b")
    call.convert = .error (.invalid [[.name "name"]]) ∧
      called.2.result = .error (.invalid [[.name "name"]]) ∧
      (s.operation? handle).map Operation.parameters = some [] ∧
      (called.1.operation? handle).map Operation.parameters =
        some [{ name := "a", location := "query", required := true }] :=
  ⟨rfl, rfl, rfl, rfl⟩

end ApiOutline
