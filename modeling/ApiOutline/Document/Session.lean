/-
ApiOutline/Document/Session.lean

A document that is edited step by step, through handles to its operations.

Design.  Registering a route gives a handle to its operation.  A handle is live
while the document has that operation: edits through it are edits of the
document, seen by every live handle of the route.  Once the operation is removed
its handles are detached: they share the operation as it was, kept in the
archive, and edits through them no longer reach the document, even if the route
is registered anew.  A refused step changes nothing, with one exception: options
applied through a handle stay up to the first bad one.
-/
import ApiOutline.Document.Basic

namespace ApiOutline

/-- Where the operation of a handle is kept. -/
inductive Binding where
  /-- in the document, under the route of the handle -/
  | live
  /-- in the archive, at the given place -/
  | detached (slot : Nat)
deriving DecidableEq, Repr, Inhabited

/-- A handle to an operation. -/
structure Handle where
  route : Route
  binding : Binding
deriving DecidableEq, Repr, Inhabited

/-- A document, the handles to its operations, and the operations that only handles remember. -/
structure Session where
  document : Document := {}
  handles : Table String Handle := []
  archive : List Operation := []
deriving Repr, Inhabited

/-- A change through a handle. -/
inductive Change where
  | edit (edit : Edit)
  /-- edits for all options that a value gives -/
  | apply (options : Data)
  /-- removal of the operation from the document -/
  | remove
deriving Repr, Inhabited

/-- One step of a session. -/
inductive Step where
  | server (url description : Data)
  | tag (name description : Data)
  | security (name : String) (fields : List (String × Data))
  | schema (name : String) (outline : Data)
  /-- registers a route and keeps a handle to it under a name -/
  | register (handle template method : String) (options : Option Data)
  /-- changes an operation through the handle with a name -/
  | change (handle : String) (change : Change)
  | remove (template tag : Option String)
  | removeOperation (key method : String)
  | reset
deriving Repr, Inhabited

/-- What a good step answers. -/
inductive Reply where
  | done
  | reference (target : String)
  | opened (route : Route)
  | same
deriving DecidableEq, Repr, Inhabited

namespace Session

/-- The operation of a handle. -/
def operation? (s : Session) (h : Handle) : Option Operation :=
  match h.binding with
  | .live => s.document.operation? h.route
  | .detached slot => s.archive[slot]?

/-- Puts an operation in the place of the one that a handle has. -/
def store (s : Session) (h : Handle) (op : Operation) : Session :=
  match h.binding with
  | .live => { s with document := s.document.store h.route op }
  | .detached slot => { s with archive := s.archive.set slot op }

/-! ### Removal -/

/-- The handle after the operation of a route went to the archive. -/
def Handle.detach (r : Route) (slot : Nat) (h : Handle) : Handle :=
  if h.route = r ∧ h.binding = .live then { h with binding := .detached slot } else h

/-- Keeps the operation of a route for the handles that have it. -/
def retire (s : Session) (r : Route) : Session :=
  match s.document.operation? r with
  | none => s
  | some op =>
    { s with
      handles := s.handles.map fun h => (h.1, Handle.detach r s.archive.length h.2)
      archive := s.archive ++ [op] }

/-- The routes that a document has and another has not. -/
def lost (before after : Document) : List Route :=
  before.routes.filter fun r => (after.operation? r).isNone

/-- The session with a document from which operations were removed. -/
def shrink (s : Session) (doc : Document) : Session :=
  { (lost s.document doc).foldl retire s with document := doc }

/-! ### Steps -/

/-- What a step does: its result is the session after it, or a fault together with the session
that it leaves. -/
abbrev Run := Traced Notice Fault Reply

/-- A step that is refused and changes nothing. -/
def refuse (s : Session) (f : Fault) : Session × Run := (s, Traced.fail f)

/-- A step that depends on a computation; if that fails, nothing is changed. -/
def after {α : Type} (s : Session) (x : Traced Notice Fault α) (f : α → Session × Reply) :
    Session × Run :=
  match x.result with
  | .ok a => ((f a).1, ⟨x.notes, .ok (f a).2⟩)
  | .error e => (s, ⟨x.notes, .error e⟩)

/-- A step that depends on a check. -/
def checked {α : Type} (s : Session) (x : Checked α) (f : α → Session × Reply) : Session × Run :=
  s.after (Traced.ofExcept (Fault.ofChecked x)) f

/-- The options that are given, if any. -/
def readOptions : Option Data → Except Fault Options
  | none => .ok {}
  | some d => Fault.ofChecked (Options.check d)

/-- A change through a handle. -/
def change (s : Session) (h : Handle) : Change → Session × Run
  | .edit e =>
    match s.operation? h with
    | none => (s, pure .same)
    | some op => s.after (op.edit e) fun op => (s.store h op, .same)
  | .apply options =>
    match Fault.ofChecked (Options.check options), s.operation? h with
    | .error f, _ => s.refuse f
    | .ok _, none => (s, pure .same)
    | .ok o, some op =>
      let (last, run) := op.editUpTo o.edits
      (s.store h last, (fun _ => Reply.same) <$> run)
  | .remove => (s.shrink (s.document.removeRoute h.route), pure .done)

/-- Removal of a path, of all operations with a tag, or of both. -/
def removal (doc : Document) (template tag : Option String) : Document :=
  let doc := match template with
    | some t => doc.removePath t
    | none => doc
  match tag with
  | some t => doc.removeTag t
  | none => doc

/-- The handle to a route just registered. -/
def hold (s : Session) (handle : String) (r : Route) (doc : Document) : Session :=
  { s with document := doc, handles := s.handles.set handle ⟨r, .live⟩ }

/-- One step. -/
def step (s : Session) : Step → Session × Run
  | .server url description =>
    s.checked (Server.make url description) fun server =>
      ({ s with document.servers := s.document.servers ++ [server] }, .done)
  | .tag name description =>
    s.checked (Tag.make name description) fun tag =>
      ({ s with document.tags := s.document.tags ++ [tag] }, .done)
  | .security name fields =>
    s.checked (SecurityScheme.ofFields (fields.map fun f => (.text f.1, f.2))) fun scheme =>
      let c := Component.securityScheme scheme
      ({ s with document := s.document.addComponent name c }, .reference (c.reference name))
  | .schema name (.text outline) =>
    s.after ((Shape.compile outline).mapError Fault.outline) fun schema =>
      let c := Component.schema schema
      ({ s with document := s.document.addComponent name c }, .reference (c.reference name))
  | .schema _ _ => s.refuse .notText
  | .register handle template method options =>
    let opened : Traced Notice Fault (Route × Document) := do
      let m ← Traced.ofExcept (Method.read method)
      let o ← Traced.ofExcept (readOptions options)
      let doc ← s.document.register template m o.edits
      pure (Route.of template m, doc)
    s.after opened fun (r, doc) => (s.hold handle r doc, .opened r)
  | .change handle c =>
    match Table.get? s.handles handle with
    | none => s.refuse (.unknownHandle handle)
    | some h => s.change h c
  | .remove template tag => (s.shrink (removal s.document template tag), pure .done)
  | .removeOperation key method =>
    match Method.named? method with
    | none => (s, pure .done)
    | some m => (s.shrink (s.document.removeRoute ⟨key, m⟩), pure .done)
  | .reset => (s.shrink s.document.reset, pure .done)

/-- The session after a list of steps. -/
def run (s : Session) : List Step → Session
  | [] => s
  | step :: steps => (s.step step).1.run steps

end Session

end ApiOutline
