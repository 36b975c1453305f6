/-
ApiOutline/Checked.lean

Checking the form of values, with all complaints collected.

Design.  A check gives a value or the places of everything that is wrong, in the
order in which the fields are declared.  Checks are combined by the applicative
operations, so that a record complains about all its fields at once and not only
about the first.
-/
import ApiOutline.Data
import ApiOutline.Number.Literal
import ApiOutline.Number.Shortest
import ApiOutline.Text.Quoted

namespace ApiOutline

/-- A step on the way to a place inside a value. -/
inductive Segment where
  | name (text : String)
  | index (number : Int)
deriving DecidableEq, Repr

/-- A place inside a value. -/
abbrev Place := List Segment

/-- A value, or the places of what is wrong. -/
inductive Checked (α : Type) where
  | accepted (value : α)
  | refused (places : List Place)
deriving Repr

namespace Checked

variable {α β : Type}

/-- Both checks together; the complaints of the first stand first. -/
protected def seq (f : Checked (α → β)) (x : Unit → Checked α) : Checked β :=
  match f, x () with
  | accepted f, accepted a => accepted (f a)
  | accepted _, refused ps => refused ps
  | refused ps, accepted _ => refused ps
  | refused ps, refused qs => refused (ps ++ qs)

instance : Applicative Checked where
  pure := accepted
  seq := Checked.seq

/-- A complaint about the value itself. -/
def refuse : Checked α := refused [[]]

/-- The check of a part: complaints are placed inside the part. -/
def inside (segment : Segment) : Checked α → Checked α
  | accepted a => accepted a
  | refused ps => refused (ps.map (segment :: ·))

/-- The check of a part whose inner places are not told apart. -/
def whole : Checked α → Checked α
  | accepted a => accepted a
  | refused _ => refuse

/-- All checks together. -/
def all : List (Checked α) → Checked (List α)
  | [] => pure []
  | x :: xs => List.cons <$> x <*> all xs

/-! ### Plain values -/

/-- The value that is there, or a complaint. -/
def ofOption : Option α → Checked α
  | some a => accepted a
  | none => refuse

/-- A text, or bytes that encode one. -/
def text (v : Data) : Checked String := ofOption v.text?

/-- The words for true. -/
def trueWords : List String := ["1", "on", "t", "true", "y", "yes"]

/-- The words for false. -/
def falseWords : List String := ["0", "off", "f", "false", "n", "no"]

/-- The boolean that a word says, in letters of either case. -/
def wordValue? (s : String) : Option Bool :=
  let word := String.ofList (s.toList.map Char.toLower)
  if word ∈ trueWords then some true
  else if word ∈ falseWords then some false
  else none

/-- A boolean, a number equal to 0 or 1, or one of the words for these. -/
def boolean (v : Data) : Checked Bool :=
  match v.text? with
  | some s => ofOption (wordValue? s)
  | none =>
    match v.keyInteger? with
    | some 0 => accepted false
    | some 1 => accepted true
    | _ => refuse

/-- A value that may be null. -/
def nullable (check : Data → Checked α) : Data → Checked (Option α)
  | .null => accepted none
  | v => some <$> check v

/-- A plain value or null.  There is a complaint for each of the four kinds that the value is
not. -/
def scalar : Data → Checked (Option Scalar)
  | .null => accepted none
  | .integer n => accepted (some (.integer n))
  | .float x => accepted (some (.float x))
  | .boolean b => accepted (some (.boolean b))
  | v =>
    match v.text? with
    | some s => accepted (some (.text s))
    | none => refused [[], [], [], []]

/-! ### Lists and mappings -/

/-- The items of a list, counted from a number on. -/
def itemsFrom (check : Data → Checked α) (number : Int) : List Data → Checked (List α)
  | [] => pure []
  | v :: vs =>
    List.cons <$> inside (.index number) (check v) <*> itemsFrom check (number + 1) vs

/-- A list. -/
def list (check : Data → Checked α) : Data → Checked (List α)
  | .list vs => itemsFrom check 0 vs
  | _ => refuse

/-- The step that leads to the value of a key; a number that fits no word is a name. -/
def keySegment : Data → Segment
  | .text s => .name s
  | .integer n =>
    if Data.fitsWord n then .index n
    else if Literal.isWritable n then .name (toString n)
    else .name "<unprintable int object>"
  | .boolean b => .index (if b then 1 else 0)
  | .float x => .name (String.ofList x.plainText)
  | .null => .name "None"
  | .bytes bs => .name (String.ofList (Text.quotedBytes bs))
  | .timestamp t => .name t.shown
  | .list _ => .name ""
  | .map _ => .name ""

/-- An entry of a mapping: complaints about the key are marked as such. -/
def entry (checkKey : Data → Checked α) (checkValue : Data → Checked β) (e : Data × Data) :
    Checked (α × β) :=
  let segment := keySegment e.1
  Prod.mk <$> inside segment (inside (.name "[key]") (checkKey e.1)) <*>
    inside segment (checkValue e.2)

/-- A mapping.  Keys that differ may be accepted as the same: then the first place and the last
value count. -/
def entries [DecidableEq α] (checkKey : Data → Checked α) (checkValue : Data → Checked β) :
    Data → Checked (Table α β)
  | .map es => Table.ofEntries <$> all (es.map (entry checkKey checkValue))
  | _ => refuse

/-! ### Records -/

/-- A record: a mapping of which some fields count and the others are ignored. -/
def record (check : List (Data × Data) → Checked α) : Data → Checked α
  | .map es => check es
  | _ => refuse

/-- A field with the value given for it, without which it is refused. -/
def given (name : String) (check : Data → Checked α) (value : Option Data) : Checked α :=
  inside (.name name) <|
    match value with
    | some v => check v
    | none => refuse

/-- A field that must be there. -/
def required (es : List (Data × Data)) (name : String) (check : Data → Checked α) : Checked α :=
  given name check (Data.field? es name)

/-- A field that may be left out. -/
def optional (es : List (Data × Data)) (name : String) (default : α) (check : Data → Checked α) :
    Checked α :=
  match Data.field? es name with
  | some v => inside (.name name) (check v)
  | none => accepted default

/-! ### Results -/

/-- The places in their order, each once. -/
def distinct (places : List Place) : List Place :=
  places.foldl (fun seen p => if p ∈ seen then seen else seen ++ [p]) []

end Checked

end ApiOutline
