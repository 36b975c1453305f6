/-
ApiOutline/Yaml/Token.lean

The tokens of a YAML text.

Design.  A text is read from left to right, and what is wrong with it further on
does not count until it is reached.  So a text of which only the beginning has
tokens is these tokens and a last one, `broken`, that says why there are no
more.
-/
import ApiOutline.Yaml.Fault

namespace ApiOutline.Yaml

/-- A tag as it is written: the handle that abbreviates its start, if it has one, and the rest. -/
structure TagName where
  handle : Option (List Char)
  suffix : List Char
deriving DecidableEq, Repr

/-- A token.  Block collections are opened where a deeper line begins and closed where a less
deep one does. -/
inductive Token where
  | version (major : Nat)
  | handle (handle target : List Char)
  | otherDirective
  | documentStart
  | documentEnd
  | blockSequence
  | blockMapping
  | blockEnd
  | openSequence
  | closeSequence
  | openMapping
  | closeMapping
  | comma
  | entry
  | key
  | value
  | alias (name : List Char)
  | anchor (name : List Char)
  | tag (name : TagName)
  /-- a scalar; only a plain one is read by its form -/
  | scalar (text : List Char) (plain : Bool)
  | finish
  /-- from here on the text has no tokens -/
  | broken (fault : Fault)
deriving DecidableEq, Repr

end ApiOutline.Yaml
