/-
ApiOutline/Proofs/Heap.lean

Sessions in which operations are objects.

Design.  A session says of each handle whether it is live.  In a heap nothing is said:
an operation is an object at an address, the paths of the document and the handles
hold addresses, and a handle reaches the document if both hold the same one.  A step is
a program over the heap.  It reads and writes one thing after the other, and where it
fails it stops; what it wrote until then stays written.  So it is not part of the
definition that a refused step changes nothing, or that a removed operation is out of
reach: both have to come from the order of reads and writes, and from addresses being
new when they are given out.

Registering a route that has an operation works on a copy at a new address.  When all
went well, what the copy has become is written over the operation, which keeps its
address, and so its handles.
-/
import ApiOutline.Document.Session
import ApiOutline.Proofs.NestedTable

namespace ApiOutline

/-! ### Heaps -/

/-- Where an operation is kept. -/
abbrev Address := Nat

/-- A handle to an operation: its route and its address. -/
structure Pointer where
  route : Route
  address : Address
deriving DecidableEq, Repr, Inhabited

/-- A document whose operations are objects, and the handles to them. -/
structure Heap where
  title : String
  version : String
  servers : List Server := []
  tags : List Tag := []
  components : Table ComponentKind (Table String Component) := []
  paths : Table String (Table Method Address) := []
  handles : Table String Pointer := []
  /-- what stands at each address -/
  cells : Address → Operation := fun _ => { parameters := [] }
  /-- the first address that was not given out -/
  size : Address := 0

namespace Heap

/-- A heap without steps. -/
def start (title version : String) : Heap := { title, version }

/-- The address that the document has for a route. -/
def address? (h : Heap) (r : Route) : Option Address := Table.at? h.paths r.key r.method

/-- The document that a heap shows. -/
def document (h : Heap) : Document where
  title := h.title
  version := h.version
  servers := h.servers
  tags := h.tags
  paths := Table.mapValues h.cells h.paths
  components := h.components

/-- Writes an operation at an address. -/
def write (h : Heap) (a : Address) (op : Operation) : Heap :=
  { h with cells := Function.update h.cells a op }

/-- Gives out the next address, for an operation. -/
def extend (h : Heap) (op : Operation) : Heap :=
  { h with cells := Function.update h.cells h.size op, size := h.size + 1 }

/-- Puts an address in the place of a route. -/
def link (h : Heap) (r : Route) (a : Address) : Heap :=
  { h with paths := Table.put h.paths r.key r.method a }

/-- Keeps a handle under a name. -/
def keep (h : Heap) (name : String) (p : Pointer) : Heap :=
  { h with handles := h.handles.set name p }

/-- Drops the address that stands in the place of a route. -/
def unlink (h : Heap) (r : Route) : Heap :=
  { h with paths := Table.remove h.paths r.key r.method }

/-- Drops the addresses under a key. -/
def unlinkPath (h : Heap) (key : String) : Heap := { h with paths := h.paths.erase key }

/-- Drops the addresses at which operations carry a tag. -/
def unlinkTag (h : Heap) (tag : String) : Heap :=
  { h with paths := Table.discard (fun a => (h.cells a).carries tag) h.paths }

end Heap

/-! ### Programs -/

/-- A program over the heap.  Where it fails, what it wrote stays. -/
abbrev Program := ExceptT Fault (StateM Heap)

namespace Program

variable {α β : Type}

/-- What a program comes to on a heap, and the heap that it leaves. -/
def exec (x : Program α) (h : Heap) : Except Fault α × Heap := StateT.run (ExceptT.run x) h

/-- A computation that neither reads nor writes. -/
def compute (x : Except Fault α) : Program α := ExceptT.mk (pure x)

/-- The first value under a key, which is written first if there is none. -/
def reserve {κ γ : Type} [DecidableEq κ] (t : Table κ γ) (key : κ) (a : γ) : Table κ γ :=
  match Table.get? t key with
  | none => t.set key a
  | some _ => t

/-! ### Objects -/

/-- A new object. -/
def new (op : Operation) : Program Address := do
  let h ← get
  set (h.extend op)
  pure h.size

/-- Reads an object. -/
def load (a : Address) : Program Operation := do
  let h ← get
  pure (h.cells a)

/-- Writes an object. -/
def store (a : Address) (op : Operation) : Program Unit := modify fun h => h.write a op

/-- Changes an object in place. -/
def change (a : Address) (f : Operation → Operation) : Program Unit :=
  modify fun h => h.write a (f (h.cells a))

/-- One change of an operation: what can fail is computed, and then written. -/
def edit (a : Address) : Edit → Program Unit
  | .request outline => do
    let b ← compute (Body.read outline).result
    change a fun op => op.give (.requestBody b)
  | .respond code outline => do
    let r ← compute (Response.read outline).result
    match code.written? with
    | some key => change a fun op => { op with responses := op.responses.set key r }
    | none => throw .longCode
  | .declare location ds => do
    let ps ← compute (Parameter.ofDeclarations location ds)
    forM ps fun p =>
      change a fun op => { op with parameters := Parameter.declare op.parameters p }
  | .tag name => change a fun op => op.give (.tag name)
  | .summarize text => change a fun op => op.give (.summary text)
  | .describe text => change a fun op => { op with description := text }
  | .deprecate => change a fun op => op.give .deprecated
  | .secure scheme => change a fun op => op.give (.security scheme)

/-- All changes that options ask for, one after the other. -/
def apply (a : Address) (o : Options) : Program Unit := do
  forM o.req fun outline => edit a (.request outline)
  forM o.responses fun r => edit a (.respond r.1 r.2)
  forM o.query fun d => edit a (.declare "query" (Parameter.split d))
  forM o.header fun d => edit a (.declare "header" (Parameter.split d))
  forM o.tag fun name => edit a (.tag name)
  forM o.summary fun text => edit a (.summarize text)
  forM o.desc fun text => edit a (.describe text)
  if o.deprecated then edit a .deprecate
  forM o.security fun scheme => edit a (.secure scheme)

/-! ### The document -/

/-- Puts a component in its place. -/
def addComponent (name : String) (c : Component) : Program Unit := do
  modify fun h => { h with components := reserve h.components c.kind [] }
  modify fun h => { h with components := Table.put h.components c.kind name c }

/-- Puts the address of an operation in the place of a route. -/
def link (r : Route) (a : Address) : Program Unit := do
  modify fun h => { h with paths := reserve h.paths r.key [] }
  modify fun h => h.link r a

/-- Registers a route.  Edits are made to a new object, the operation of the template or a copy of
the operation that the route has; only then does the document get to know of them. -/
def register (name template method : String) (options : Option Data) : Program Reply := do
  let m ← compute (Method.read method)
  let o ← compute (Session.readOptions options)
  let r := Route.of template m
  let h ← get
  match h.address? r with
  | none => do
    let a ← new (Operation.ofTemplate template)
    apply a o
    link r a
    modify fun h => h.keep name ⟨r, a⟩
  | some old => do
    let op ← load old
    let copy ← new op
    apply copy o
    let op ← load copy
    store old op
    modify fun h => h.keep name ⟨r, old⟩
  pure (.opened r)

/-- A change through a handle. -/
def changeThrough (p : Pointer) : Change → Program Reply
  | .edit e => do
    edit p.address e
    pure .same
  | .apply options => do
    let o ← compute (Fault.ofChecked (Options.check options))
    apply p.address o
    pure .same
  | .remove => do
    modify fun h => h.unlink p.route
    pure .done

/-- One step. -/
def step : Step → Program Reply
  | .server url description => do
    let server ← compute (Fault.ofChecked (Server.make url description))
    modify fun h => { h with servers := h.servers ++ [server] }
    pure .done
  | .tag name description => do
    let tag ← compute (Fault.ofChecked (Tag.make name description))
    modify fun h => { h with tags := h.tags ++ [tag] }
    pure .done
  | .security name fields => do
    let scheme ← compute
      (Fault.ofChecked (SecurityScheme.ofFields (fields.map fun f => (.text f.1, f.2))))
    addComponent name (.securityScheme scheme)
    pure (.reference ((Component.securityScheme scheme).reference name))
  | .schema name (.text outline) => do
    let schema ← compute ((Shape.compile outline).result.mapError Fault.outline)
    addComponent name (.schema schema)
    pure (.reference ((Component.schema schema).reference name))
  | .schema _ _ => throw .notText
  | .register name template method options => register name template method options
  | .change name c => do
    let h ← get
    match Table.get? h.handles name with
    | none => throw (.unknownHandle name)
    | some p => changeThrough p c
  | .remove template tag => do
    forM template fun t => modify fun h => h.unlinkPath (Template.keyOf t)
    forM tag fun t => modify fun h => h.unlinkTag t
    pure .done
  | .removeOperation key method => do
    forM (Method.named? method) fun m => modify fun h => h.unlink ⟨key, m⟩
    pure .done
  | .reset => do
    modify fun h => { h with paths := [] }
    modify fun h => { h with components := [] }
    modify fun h => { h with tags := [] }
    modify fun h => { h with servers := [] }
    pure .done

/-! ### Running programs -/

@[simp] theorem exec_compute (x : Except Fault α) (h : Heap) : exec (compute x) h = (x, h) := rfl

@[simp] theorem exec_get (h : Heap) : exec get h = (.ok h, h) := rfl

@[simp] theorem exec_modify (f : Heap → Heap) (h : Heap) : exec (modify f) h = (.ok (), f h) := rfl

/-- A program that does well is followed by the next one. -/
theorem exec_bind_of_ok {x : Program α} {h h' : Heap} {a : α} (hx : exec x h = (.ok a, h'))
    (f : α → Program β) : exec (x >>= f) h = exec (f a) h' := by
  rw [exec] at hx
  rw [exec, ExceptT.run_bind, StateT.run_bind, hx]
  rfl

/-- A program that fails is followed by nothing. -/
theorem exec_bind_of_error {x : Program α} {h h' : Heap} {e : Fault}
    (hx : exec x h = (.error e, h')) (f : α → Program β) : exec (x >>= f) h = (.error e, h') := by
  rw [exec] at hx
  rw [exec, ExceptT.run_bind, StateT.run_bind, hx]
  rfl

end Program

namespace Heap

/-- What a step comes to, and the heap that it leaves. -/
def step (h : Heap) (st : Step) : Except Fault Reply × Heap := (Program.step st).exec h

/-- The heap after a list of steps. -/
def run (h : Heap) : List Step → Heap
  | [] => h
  | st :: steps => (h.step st).2.run steps

end Heap

end ApiOutline
