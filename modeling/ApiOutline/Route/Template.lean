/-
ApiOutline/Route/Template.lean

Path templates: their parameters, and the key under which a route is known.

Design.  A token in braces holds no closing brace, so it lies between two of
them: the text up to a closing brace holds a token exactly when something
follows its first opening brace.  Likewise a colon token lies between two
slashes.  A token is a name and, after a colon, a default; the key of a template
has the names only.
-/
import ApiOutline.Text.Cut

namespace ApiOutline.Template

open Text

/-- The text after the first `mark`, if there is any. -/
def tokenAfter? (mark : Char) (piece : List Char) : Option (List Char) :=
  if (cut mark piece).2 = [] then none else some (cut mark piece).2

/-- The tokens in braces. -/
def braceTokens (template : List Char) : List (List Char) :=
  (pieces '}' template).dropLast.filterMap (tokenAfter? '{')

/-- The tokens after colons. -/
def colonTokens (template : List Char) : List (List Char) :=
  (pieces '/' template).filterMap (tokenAfter? ':')

/-- The tokens of a template: those in braces or, if there are none, those after colons. -/
def tokens (template : List Char) : List (List Char) :=
  if braceTokens template = [] then colonTokens template else braceTokens template

/-- A parameter of a template: its name and its default, which may be empty. -/
structure Slot where
  name : List Char
  default : List Char
deriving DecidableEq, Repr

/-- The parameter that a token declares; a token without a name declares none. -/
def slot? (token : List Char) : Option Slot :=
  if (cut ':' token).1 = [] then none else some ⟨(cut ':' token).1, (cut ':' token).2⟩

/-- The parameters of a template. -/
def slots (template : List Char) : List Slot := (tokens template).filterMap slot?

/-- The text up to a closing brace, its token without a default. -/
def barePiece (piece : List Char) : List Char :=
  match tokenAfter? '{' piece with
  | none => piece
  | some token =>
    match slot? token with
    | none => piece
    | some s => (cut '{' piece).1 ++ '{' :: s.name

/-- The function, applied to all items but the last. -/
def mapInit {α : Type} (f : α → α) : List α → List α
  | [] => []
  | [a] => [a]
  | a :: b :: l => f a :: mapInit f (b :: l)

/-- The key of a template: every token in braces without its default. -/
def key (template : List Char) : List Char :=
  join '}' (mapInit barePiece (pieces '}' template))

end ApiOutline.Template
