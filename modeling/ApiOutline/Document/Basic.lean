/-
ApiOutline/Document/Basic.lean

Documents: routes, components, tags and servers.

Design.  A route is known by the key of its template and its method, so that
templates which differ only in their defaults name the same route.  Registering a
route edits a copy of its operation and stores the copy only when all edits were
good.  A path whose last operation is removed is removed as well.
-/
import ApiOutline.Route.Basic
import ApiOutline.Route.Options

namespace ApiOutline

/-! ### Parts of a document -/

/-- A server that offers the described interface. -/
structure Server where
  url : String
  description? : Option String := none
deriving DecidableEq, Repr, Inhabited

/-- A tag, by which operations are grouped. -/
structure Tag where
  name : String
  description? : Option String := none
deriving DecidableEq, Repr, Inhabited

/-- A way to prove who is calling. -/
structure SecurityScheme where
  type : String := "http"
  scheme : String := "bearer"
  bearerFormat? : Option String := none
  required : Bool := true
deriving DecidableEq, Repr, Inhabited

namespace Server

/-- The server that the two values describe. -/
def make (url description : Data) : Checked Server :=
  Server.mk <$> Checked.given "url" Checked.text url <*>
    Checked.given "description" (Checked.nullable Checked.text) description

/-- The server that a mapping describes. -/
def ofFields (es : List (Data × Data)) : Checked Server :=
  Server.mk <$> Checked.required es "url" Checked.text <*>
    Checked.optional es "description" none (Checked.nullable Checked.text)

/-- The server as part of a document. -/
def toJson (s : Server) : Json :=
  .object (("url", .text s.url) :: Json.field? "description" (s.description?.map Json.text))

end Server

namespace Tag

/-- The tag that the two values describe. -/
def make (name description : Data) : Checked Tag :=
  Tag.mk <$> Checked.given "name" Checked.text name <*>
    Checked.given "description" (Checked.nullable Checked.text) description

/-- The tag that a mapping describes. -/
def ofFields (es : List (Data × Data)) : Checked Tag :=
  Tag.mk <$> Checked.required es "name" Checked.text <*>
    Checked.optional es "description" none (Checked.nullable Checked.text)

/-- The tag as part of a document. -/
def toJson (t : Tag) : Json :=
  .object (("name", .text t.name) :: Json.field? "description" (t.description?.map Json.text))

end Tag

namespace SecurityScheme

/-- The scheme that a mapping describes. -/
def ofFields (es : List (Data × Data)) : Checked SecurityScheme :=
  SecurityScheme.mk <$> Checked.optional es "type" "http" Checked.text <*>
    Checked.optional es "scheme" "bearer" Checked.text <*>
    Checked.optional es "bearer_format" none (Checked.nullable Checked.text) <*>
    Checked.optional es "required" true Checked.boolean

/-- The scheme as part of a document; it is always sent in a header. -/
def toJson (s : SecurityScheme) : Json :=
  .object
    ([("type", .text s.type), ("scheme", .text s.scheme)] ++
      Json.field? "bearerFormat" (s.bearerFormat?.map Json.text) ++
      [("in", .text "header"), ("required", .boolean s.required)])

end SecurityScheme

/-- The two kinds of component. -/
inductive ComponentKind where
  | securitySchemes
  | schemas
deriving DecidableEq, Repr

/-- The name of a kind of component. -/
def ComponentKind.name : ComponentKind → String
  | securitySchemes => "securitySchemes"
  | schemas => "schemas"

/-- A component, to which others can refer by name. -/
inductive Component where
  | securityScheme (scheme : SecurityScheme)
  | schema (schema : Schema)
deriving Repr, Inhabited

namespace Component

/-- The kind of a component. -/
def kind : Component → ComponentKind
  | securityScheme _ => .securitySchemes
  | schema _ => .schemas

/-- The component as part of a document. -/
def toJson : Component → Json
  | securityScheme s => s.toJson
  | schema s => s.rootJson

/-- The reference to a component. -/
def reference (c : Component) (name : String) : String :=
  "#/components/" ++ c.kind.name ++ "/" ++ name

end Component

/-! ### Documents -/

/-- A document. -/
structure Document where
  title : String := ""
  version : String := "1.0.0"
  servers : List Server := []
  tags : List Tag := []
  paths : Table String (Table Method Operation) := []
  components : Table ComponentKind (Table String Component) := []
deriving Repr, Inhabited

namespace Document

/-- The operations of a path. -/
def path (doc : Document) (key : String) : Table Method Operation :=
  (Table.get? doc.paths key).getD []

/-- The operation of a route. -/
def operation? (doc : Document) (r : Route) : Option Operation :=
  Table.get? (doc.path r.key) r.method

/-- All routes, in order. -/
def routes (doc : Document) : List Route :=
  doc.paths.flatMap fun p => p.2.map fun o => ⟨p.1, o.1⟩

/-- Puts an operation in the place of a route. -/
def store (doc : Document) (r : Route) (op : Operation) : Document :=
  { doc with paths := doc.paths.set r.key ((doc.path r.key).set r.method op) }

/-- Registers a route, or edits the operation of a route that was registered before. -/
def register (doc : Document) (template : String) (method : Method) (edits : List Edit) :
    Traced Notice Fault Document := do
  let r := Route.of template method
  match doc.operation? r with
  | some op => do
    let op ← op.editAll edits
    pure (doc.store r op)
  | none => do
    let op ← (Operation.ofTemplate template).editAll edits
    Traced.note (.registered method.upperName r.key)
    pure (doc.store r op)

/-- Removes the operation of a route, and the path with its last operation. -/
def removeRoute (doc : Document) (r : Route) : Document :=
  match (doc.path r.key).erase r.method with
  | [] => { doc with paths := doc.paths.erase r.key }
  | ops => { doc with paths := doc.paths.set r.key ops }

/-- Removes the path of a template. -/
def removePath (doc : Document) (template : String) : Document :=
  { doc with paths := doc.paths.erase (Template.keyOf template) }

/-- Removes the operations that carry a tag, and the paths left without operations. -/
def removeTag (doc : Document) (tag : String) : Document :=
  { doc with
    paths := doc.paths.filterMap fun p =>
      match p.2.filter fun o => !o.2.carries tag with
      | [] => none
      | ops => some (p.1, ops) }

/-- Forgets all but the title and the version. -/
def reset (doc : Document) : Document := { title := doc.title, version := doc.version }

/-- Puts a component in its place. -/
def addComponent (doc : Document) (name : String) (c : Component) : Document :=
  { doc with
    components :=
      doc.components.set c.kind (((Table.get? doc.components c.kind).getD []).set name c) }

/-- Compiles an outline and adds it as a component. -/
def addSchema (doc : Document) (name outline : String) : Traced Notice Fault Document := do
  let s ← (Shape.compile outline).mapError Fault.outline
  pure (doc.addComponent name (.schema s))

/-! ### Written form -/

/-- The document as a value, under another title or version if one is given. -/
def toJson (doc : Document) (title version : Option String) : Json :=
  .object
    [("openapi", .text "3.0.0"),
      ("info", .object
        [("title", .text (title.getD doc.title)), ("version", .text (version.getD doc.version))]),
      ("servers", .array (doc.servers.map Server.toJson)),
      ("tags", .array (doc.tags.map Tag.toJson)),
      ("paths", .object (doc.paths.map fun p =>
        (p.1, .object (p.2.map fun o => (o.1.name, o.2.toJson))))),
      ("components", .object (doc.components.map fun c =>
        (c.1.name, .object (c.2.map fun e => (e.1, e.2.toJson)))))]

end Document

end ApiOutline
