/-
ApiOutline/Route/Options.lean

Options: all that can be said about an operation, in one record.

Design.  The options that are given become edits in a fixed order: request,
responses in their order, query, header, tag, summary, description, deprecation,
security.  The order in which a mapping lists them does not count.
-/
import ApiOutline.Route.Operation

namespace ApiOutline

/-- What is said about an operation when its route is registered. -/
structure Options where
  tag : Option String := none
  summary : Option String := none
  desc : Option String := none
  req : Option String := none
  query : Option Data := none
  header : Option Data := none
  security : Option String := none
  deprecated : Bool := false
  responses : Table Code String := []
deriving Repr, Inhabited

namespace Options

/-- One declaration in a list: a text or a mapping. -/
def checkDeclaration : Data → Checked Data
  | .map es => .accepted (.map es)
  | v => .text <$> Checked.text v

/-- Declarations of parameters: a text, or a list of texts and mappings.  What is wrong inside
the list is not told apart. -/
def checkDeclarations : Data → Checked Data
  | .list vs => .list <$> Checked.whole (Checked.all (vs.map checkDeclaration))
  | v => .text <$> Checked.text v

/-- The options that a mapping gives. -/
def ofFields (es : List (Data × Data)) : Checked Options :=
  let optionalText (name : String) := Checked.optional es name none (Checked.nullable Checked.text)
  let declarations (name : String) :=
    Checked.optional es name none (Checked.nullable checkDeclarations)
  Options.mk <$> optionalText "tag" <*> optionalText "summary" <*> optionalText "desc" <*>
    optionalText "req" <*> declarations "query" <*> declarations "header" <*>
    optionalText "security" <*> Checked.optional es "deprecated" false Checked.boolean <*>
    Checked.optional es "responses" [] (Checked.entries Code.check Checked.text)

/-- The options that a value gives. -/
def check : Data → Checked Options := Checked.record ofFields

/-- The edits that the options ask for. -/
def edits (o : Options) : List Edit :=
  o.req.toList.map .request ++
  o.responses.map (fun r => .respond r.1 r.2) ++
  o.query.toList.map (fun d => .declare "query" (Parameter.split d)) ++
  o.header.toList.map (fun d => .declare "header" (Parameter.split d)) ++
  o.tag.toList.map .tag ++
  o.summary.toList.map .summarize ++
  o.desc.toList.map .describe ++
  (if o.deprecated then [.deprecate] else []) ++
  o.security.toList.map .secure

end Options

end ApiOutline
