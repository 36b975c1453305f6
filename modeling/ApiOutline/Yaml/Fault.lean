/-
ApiOutline/Yaml/Fault.lean

Why a YAML text cannot be read.

Design.  A text that breaks the rules of the format is malformed, and no more is
said about it.  A text may also follow the rules and yet write a value that does
not exist; each way in which this happens is a cause of its own.
-/
import ApiOutline.Number.Literal
import ApiOutline.Text.Quoted
import ApiOutline.Timestamp

namespace ApiOutline.Yaml

/-- How a value that is written fails to exist. -/
inductive BadValue where
  /-- a number has no digits at all -/
  | noDigits
  | notInteger (base : Nat) (text : List Char)
  | tooManyDigits (count : Nat)
  | notFloat (text : List Char)
  /-- a number in base 60 has so many places that the first is worth more than any number -/
  | tooManyPlaces
  | notBoolean
  | notTimestamp
  /-- a timestamp is written in a mapping -/
  | timestampInMapping
  | badTimestamp (fault : Timestamp.Fault)
  /-- no character has the code, which is a signed word of 32 bits -/
  | noCharacter
  /-- the code of a character is no such word -/
  | longCharacter
  /-- the text of a scalar is looked for without end -/
  | endless
deriving DecidableEq, Repr

/-- The message about a text that is no whole number; a long text is cut off. -/
def notIntegerMessage (base : Nat) (text : List Char) : String :=
  "invalid literal for int() with base " ++ toString base ++ ": " ++
    String.ofList ((Text.quoted text).take 200)

/-- The text of the message about a bad value. -/
def BadValue.message : BadValue → String
  | noDigits => "a number without digits"
  | notInteger base text => notIntegerMessage base text
  | tooManyDigits count => Literal.limitMessage (some count)
  | notFloat text => "could not convert string to float: " ++ String.ofList (Text.quoted text)
  | tooManyPlaces => "too many places"
  | notBoolean => "not a boolean"
  | notTimestamp => "not a timestamp"
  | timestampInMapping => "a timestamp in a mapping"
  | badTimestamp fault => fault.message
  | noCharacter => "chr() arg not in range(0x110000)"
  | longCharacter => "the code of a character is too large"
  | endless => "a scalar without end"

/-- Why a text cannot be read. -/
inductive Fault where
  /-- the text breaks the rules of the format -/
  | malformed
  | badValue (value : BadValue)
deriving DecidableEq, Repr

/-- What is not there makes the text malformed. -/
instance : MonadLift Option (Except Fault) where
  monadLift
    | some a => .ok a
    | none => .error .malformed

end ApiOutline.Yaml
