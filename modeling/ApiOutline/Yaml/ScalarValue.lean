/-
ApiOutline/Yaml/ScalarValue.lean

The values of scalars.

Design.  A scalar has the form of its tag because it was found to have it, or
because the tag is written at it; in the second case its text can be anything,
and may have no value (`BadValue`).
-/
import ApiOutline.Data
import ApiOutline.Text.Base64
import ApiOutline.Text.LowerCase
import ApiOutline.Yaml.Plain
import ApiOutline.Yaml.Fault

namespace ApiOutline.Yaml.ScalarValue

/-! ### Whole numbers -/

/-- The whole number that a text writes in a base. -/
def whole (base : Nat) (cs : List Char) : Except BadValue Int :=
  match Literal.readWhole base cs with
  | .ok n => .ok n
  | .error .notWhole => .error (.notInteger base cs)
  | .error (.tooManyDigits count) => .error (.tooManyDigits count)

/-- A whole number: a letter after a zero says its base, and colons part places in base 60. -/
def integer (cs : List Char) : Except BadValue Int := do
  let (negative, ds) := Literal.signed (cs.filter (· ≠ '_'))
  let n ←
    match ds with
    | [] => throw .noDigits
    | ['0'] => pure 0
    | '0' :: 'b' :: ds => whole 2 ds
    | '0' :: 'x' :: ds => whole 16 ds
    | '0' :: _ => whole 8 ds
    | _ => do
      let places ← (Text.pieces ':' ds).mapM (whole 10)
      pure (places.foldl (fun n d => 60 * n + d) 0)
  return if negative then -n else n

/-! ### Floating-point numbers -/

/-- The floating-point number that a text writes. -/
def decimal (cs : List Char) : Except BadValue Binary64 :=
  match Literal.readBinary64? cs with
  | some x => .ok x
  | none => .error (.notFloat cs)

/-- The value of places in base 60, the last one first, `unit` being what the next one is worth:
that must be no more than a number can be. -/
def places (unit : Nat) (sum : Binary64) : List Binary64 → Except BadValue Binary64
  | [] => .ok sum
  | x :: xs =>
    if (Binary64.ofInt unit).isFinite then
      places (60 * unit) (sum.add (x.mul (.ofInt unit))) xs
    else .error .tooManyPlaces

/-- A floating-point number: colons part places in base 60. -/
def float (cs : List Char) : Except BadValue Binary64 := do
  let cs := Text.lowerCase (cs.filter (· ≠ '_'))
  let (negative, ds) := Literal.signed cs
  if cs = [] then throw .noDigits
  else if ds = ".nan".toList then return .nan
  else
    let x ←
      if ds = ".inf".toList then pure (Binary64.infinity false)
      else
        match ← (Text.pieces ':' ds).mapM decimal with
        | [x] => pure x
        | xs => places 1 (.zero false) xs.reverse
    return if negative then x.neg else x

/-! ### Other values -/

/-- A boolean. -/
def boolean (cs : List Char) : Except BadValue Bool :=
  let word := String.ofList (Text.lowerCase cs)
  if word ∈ Plain.trueWords then .ok true
  else if word ∈ Plain.falseWords then .ok false
  else .error .notBoolean

/-- A timestamp that exists. -/
def timestamp (cs : List Char) : Except BadValue Timestamp :=
  match Plain.timestamp? cs with
  | none => .error .notTimestamp
  | some t =>
    match t.fault? with
    | some f => .error (.badTimestamp f)
    | none => .ok t

/-- The value, or the fault that it does not exist. -/
def lift {α : Type} (make : α → Data) : Except BadValue α → Except Fault Data
  | .ok a => .ok (make a)
  | .error e => .error (.badValue e)

/-- The value of a text under the tag of a scalar; under other tags it has none. -/
def read (tag : Tag) (cs : List Char) : Except Fault Data :=
  match tag with
  | .null => .ok .null
  | .boolean => lift .boolean (boolean cs)
  | .integer => lift .integer (integer cs)
  | .float => lift .float (float cs)
  | .binary => do return .bytes (← Text.Base64.decode? cs)
  | .timestamp => lift .timestamp (timestamp cs)
  | .text => .ok (.text (String.ofList cs))
  | _ => .error .malformed

end ApiOutline.Yaml.ScalarValue
