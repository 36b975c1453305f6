/-
ApiOutline/Manifest/File.lean

Manifest files: from the text of a file to the document it describes.

Design.  A text fails at one of four stages: it is no YAML, its root is no
mapping, the mapping has not the form of a manifest, or a schema or route of the
manifest is refused.  A file without contents is an empty manifest.  A few
faults are not the manifest's to answer for (`isBlamed`): a scalar without a
value, a block that refers to itself, and a parameter whose schema is no
mapping.
-/
import ApiOutline.Manifest.Basic
import ApiOutline.Text.Lines
import ApiOutline.Yaml.Reader

namespace ApiOutline.Manifest

/-- Why a file gives no document. -/
inductive Fault where
  | notFound
  /-- the text breaks the rules of YAML -/
  | unreadable
  /-- a scalar is written that has no value -/
  | badValue (value : Yaml.BadValue)
  | notMapping
  /-- the mapping has not the form of a manifest -/
  | invalid (places : List Place)
  /-- a schema or a route is refused -/
  | refused (fault : ApiOutline.Fault)
deriving DecidableEq, Repr

namespace Fault

/-- The manifest is to blame, and the fault is reported as one of the manifest. -/
def isBlamed : Fault → Bool
  | badValue _ => false
  | refused (.outline (.malformed ..)) => true
  | refused (.unsupportedMethod _) => true
  | refused (.invalid _) => true
  | refused .longCode => true
  | refused _ => false
  | _ => true

/-- The text of a fault of the file with the given name. -/
def message (path : String) : Fault → String
  | notFound => "Manifest file not found: " ++ path
  | unreadable => "Failed to parse manifest file"
  | badValue v => v.message
  | notMapping => "Manifest root must be a mapping."
  | invalid _ => "Invalid manifest " ++ path
  | refused f => f.message

end Fault

/-- The value of a text: contents that are missing are an empty mapping. -/
def readText (text : String) : Except Fault Data :=
  match Yaml.load (Text.unifyLineEnds text.toList) with
  | .ok .null => .ok (.map [])
  | .ok v => .ok v
  | .error .malformed => .error .unreadable
  | .error (.badValue v) => .error (.badValue v)

/-- The manifest that a value is. -/
def ofData (v : Data) : Except Fault Manifest :=
  match v with
  | .map es =>
    match ofFields es with
    | .accepted m => .ok m
    | .refused places => .error (.invalid places)
  | _ => .error .notMapping

/-- The document that a text describes; `none` is the text of a file that is not there. -/
def load (text : Option String) : Traced Notice Fault Document :=
  match text with
  | none => Traced.fail .notFound
  | some text =>
    match readText text >>= ofData with
    | .error f => Traced.fail f
    | .ok m => m.build.mapError .refused

end ApiOutline.Manifest
