/-
ApiOutline/Route/Operation.lean

Operations: what a document says about one method of one path.

Design.  Parameters, responses and the description are always there; the other
details stand in the order in which they were first given, each at most
once.  An `Edit` is one change of an operation.  It reads all its outlines and
declarations before it changes anything, so that a bad one leaves the operation
as it was; a list of edits stops at the first bad one, the edits before it
staying.
-/
import ApiOutline.Route.Code
import ApiOutline.Route.Parameter
import ApiOutline.Shape.Compile

namespace ApiOutline

open Text

/-! ### Bodies and responses -/

/-- The body of a request or response. -/
inductive Body where
  /-- a component, by its reference -/
  | reference (target : String)
  | schema (schema : Schema)
deriving Repr, Inhabited

namespace Body

/-- The body that an outline describes; an outline that starts with `#` is a reference. -/
def read (outline : String) : Traced Notice Fault Body :=
  if outline.toList.head? = some '#' then pure (.reference outline)
  else .schema <$> (Shape.compile outline).mapError Fault.outline

/-- The body as part of a document. -/
def toJson : Body → Json
  | reference target => .object [("$ref", .text target)]
  | schema s => s.rootJson

/-- A body of plain text is no JSON. -/
def mediaType : Body → String
  | schema s => if s.type = .string then "text/plain" else "application/json"
  | reference _ => "application/json"

/-- The content of one media type. -/
def contentJson (mediaType : String) (b : Body) : Json :=
  .object [(mediaType, .object [("schema", b.toJson)])]

end Body

/-- A response, with or without a body. -/
structure Response where
  body? : Option Body
deriving Repr, Inhabited

namespace Response

/-- The response that an outline describes; a blank outline describes no body. -/
def read (outline : String) : Traced Notice Fault Response :=
  if allBlank outline.toList then pure ⟨none⟩
  else (fun b => ⟨some b⟩) <$> Body.read outline

/-- The response as part of a document. -/
def toJson (r : Response) : Json :=
  .object
    (Json.field? "content" (r.body?.map fun b => b.contentJson b.mediaType) ++
      [("description", .text "")])

end Response

/-! ### Operations -/

/-- What else can be said about an operation. -/
inductive Detail where
  | requestBody (body : Body)
  | tag (name : String)
  | summary (text : String)
  | deprecated
  | security (scheme : String)
deriving Repr, Inhabited

namespace Detail

/-- The field in which a detail stands. -/
def field : Detail → String
  | requestBody _ => "requestBody"
  | tag _ => "tags"
  | summary _ => "summary"
  | deprecated => "deprecated"
  | security _ => "security"

/-- The value of a detail. -/
def toJson : Detail → Json
  | requestBody b => .object [("content", b.contentJson "application/json")]
  | tag name => .array [.text name]
  | summary text => .text text
  | deprecated => .boolean true
  | security scheme => .array [.object [(scheme, .array [])]]

end Detail

/-- What a document says about one method of one path. -/
structure Operation where
  parameters : List Parameter
  responses : Table String Response := []
  description : String := ""
  details : Table String Detail := []
deriving Repr, Inhabited

namespace Operation

/-- The operation that a path template describes by itself. -/
def ofTemplate (template : String) : Operation where
  parameters := Parameter.ofTemplate template

/-- Gives a detail. -/
def give (op : Operation) (d : Detail) : Operation :=
  { op with details := op.details.set d.field d }

/-- The operation carries a tag. -/
def carries (op : Operation) (tag : String) : Bool :=
  match Table.get? op.details "tags" with
  | some (.tag name) => name = tag
  | _ => false

/-- The operation as part of a document. -/
def toJson (op : Operation) : Json :=
  .object
    ([("parameters", .array (op.parameters.map Parameter.toJson)),
        ("responses", .object (op.responses.map fun r => (r.1, r.2.toJson))),
        ("description", .text op.description)] ++
      op.details.map fun d => (d.1, d.2.toJson))

end Operation

/-! ### Edits -/

/-- One change of an operation. -/
inductive Edit where
  | request (outline : String)
  | respond (code : Code) (outline : String)
  | declare (location : String) (declarations : List Data)
  | tag (name : String)
  | summarize (text : String)
  | describe (text : String)
  | deprecate
  | secure (scheme : String)
deriving Repr, Inhabited

namespace Operation

/-- The operation after one change. -/
def edit (op : Operation) : Edit → Traced Notice Fault Operation
  | .request outline => do
    let b ← Body.read outline
    pure (op.give (.requestBody b))
  | .respond code outline => do
    let r ← Response.read outline
    match code.written? with
    | some key => pure { op with responses := op.responses.set key r }
    | none => Traced.fail .longCode
  | .declare location declarations => do
    let ps ← Traced.ofExcept (Parameter.ofDeclarations location declarations)
    pure { op with parameters := ps.foldl Parameter.declare op.parameters }
  | .tag name => pure (op.give (.tag name))
  | .summarize text => pure (op.give (.summary text))
  | .describe text => pure { op with description := text }
  | .deprecate => pure (op.give .deprecated)
  | .secure scheme => pure (op.give (.security scheme))

/-- The operation after a list of changes up to the first bad one, and what came of them. -/
def editUpTo (op : Operation) : List Edit → Operation × Traced Notice Fault Unit
  | [] => (op, pure ())
  | e :: es =>
    let first := op.edit e
    match first.result with
    | .error f => (op, ⟨first.notes, .error f⟩)
    | .ok op' =>
      let (last, rest) := op'.editUpTo es
      (last, ⟨first.notes ++ rest.notes, rest.result⟩)

/-- The operation after a list of changes, all of which must be good. -/
def editAll (op : Operation) : List Edit → Traced Notice Fault Operation
  | [] => pure op
  | e :: es => do
    let op' ← op.edit e
    op'.editAll es

end Operation

end ApiOutline
