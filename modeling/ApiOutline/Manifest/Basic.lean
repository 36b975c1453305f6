/-
ApiOutline/Manifest/Basic.lean

Manifests: a whole document in one file.

Design.  A manifest is checked as a whole first, so that a bad one complains
about everything at once; then it is replayed on an empty document: servers,
tags and security schemes, which cannot fail any more, then schemas and routes,
in their order.
-/
import ApiOutline.Document.Basic

namespace ApiOutline

/-- A route of a manifest. -/
structure RouteEntry where
  options : Options
  path : String
  method : String := "get"
deriving Repr, Inhabited

/-- The contents of a manifest. -/
structure Manifest where
  title : String := ""
  version : String := "1.0.0"
  servers : List Server := []
  tags : List Tag := []
  security : Table String SecurityScheme := []
  schemas : Table String String := []
  routes : List RouteEntry := []
deriving Repr, Inhabited

namespace RouteEntry

/-- The route that a mapping describes. -/
def ofFields (es : List (Data × Data)) : Checked RouteEntry :=
  RouteEntry.mk <$> Options.ofFields es <*> Checked.required es "path" Checked.text <*>
    Checked.optional es "method" "get" Checked.text

end RouteEntry

namespace Manifest

/-- The manifest that a mapping describes. -/
def ofFields (es : List (Data × Data)) : Checked Manifest :=
  Manifest.mk <$> Checked.optional es "title" "" Checked.text <*>
    Checked.optional es "version" "1.0.0" Checked.text <*>
    Checked.optional es "servers" [] (Checked.list (Checked.record Server.ofFields)) <*>
    Checked.optional es "tags" [] (Checked.list (Checked.record Tag.ofFields)) <*>
    Checked.optional es "security" []
      (Checked.entries Checked.text (Checked.record SecurityScheme.ofFields)) <*>
    Checked.optional es "schemas" [] (Checked.entries Checked.text Checked.text) <*>
    Checked.optional es "routes" [] (Checked.list (Checked.record RouteEntry.ofFields))

/-- The manifest that a value describes. -/
def check : Data → Checked Manifest := Checked.record ofFields

/-! ### Replay -/

/-- The document before its schemas and routes. -/
def frame (m : Manifest) : Document :=
  m.security.foldl (fun doc e => doc.addComponent e.1 (.securityScheme e.2))
    { title := m.title, version := m.version, servers := m.servers, tags := m.tags }

/-- Adds schemas in their order. -/
def addSchemas (doc : Document) : List (String × String) → Traced Notice Fault Document
  | [] => pure doc
  | e :: es => do
    let doc ← doc.addSchema e.1 e.2
    addSchemas doc es

/-- Registers routes in their order. -/
def addRoutes (doc : Document) : List RouteEntry → Traced Notice Fault Document
  | [] => pure doc
  | r :: rs => do
    let m ← Traced.ofExcept (Method.read r.method)
    let doc ← doc.register r.path m r.options.edits
    addRoutes doc rs

/-- The document that a manifest describes. -/
def build (m : Manifest) : Traced Notice Fault Document := do
  let doc ← addSchemas m.frame m.schemas
  addRoutes doc m.routes

end Manifest

end ApiOutline
