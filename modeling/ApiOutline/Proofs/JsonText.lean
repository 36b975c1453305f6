/-
ApiOutline/Proofs/JsonText.lean

The grammar of JSON text, and what it keeps out of a text.

Design.  The grammar is that of standard JSON: six marks have space around them, the items of an
array and the members of an object have commas between them, and a number has no zero in front
and a digit on each side of its point.  It says which texts are JSON, and not what they mean.
That a text is none is seen by reading it once from left to right (`Reader`): outside of
strings JSON has small letters only, but for an `E`, and neither `NaN` nor `Infinity`.

Main result: `IsValue.shows`.
-/
import ApiOutline.Text.Hex

namespace ApiOutline.Json

/-! ### Space and numbers -/

/-- The characters that may stand between the parts of a text. -/
def isSpace (c : Char) : Bool := c = ' ' || c = '\t' || c = '\n' || c = '\r'

/-- The text is space, or empty. -/
def IsSpace (cs : List Char) : Prop := ∀ c ∈ cs, isSpace c = true

instance (cs : List Char) : Decidable (IsSpace cs) :=
  decidable_of_iff (cs.all isSpace = true) List.all_eq_true

/-- The text is one digit or more. -/
def IsDigits (cs : List Char) : Prop := cs ≠ [] ∧ ∀ c ∈ cs, c.isDigit = true

/-- A whole number without a sign, and without a zero in front. -/
inductive IsWhole : List Char → Prop
  | zero : IsWhole ['0']
  | digits {d : Char} (hd : d.isDigit = true) (hne : d ≠ '0') {ds : List Char}
      (hds : ∀ c ∈ ds, c.isDigit = true) : IsWhole (d :: ds)

/-- The digits behind the point, if there is one. -/
inductive IsFraction : List Char → Prop
  | none : IsFraction []
  | some {ds : List Char} (h : IsDigits ds) : IsFraction ('.' :: ds)

/-- The power of ten, if there is one. -/
inductive IsPower : List Char → Prop
  | none : IsPower []
  | some {e : Char} (he : e = 'e' ∨ e = 'E') {sign ds : List Char}
      (hs : sign = [] ∨ sign = ['+'] ∨ sign = ['-']) (h : IsDigits ds) : IsPower (e :: sign ++ ds)

/-- A number. -/
inductive IsNumber : List Char → Prop
  | number {sign whole fraction power : List Char} (hs : sign = [] ∨ sign = ['-'])
      (hw : IsWhole whole) (hf : IsFraction fraction) (hp : IsPower power) :
      IsNumber (sign ++ whole ++ fraction ++ power)

/-! ### Strings -/

/-- The characters that stand behind a backslash alone. -/
def escapes : List Char := ['"', '\\', '/', 'b', 'f', 'n', 'r', 't']

/-- What may stand between the quotes of a string. -/
inductive IsChars : List Char → Prop
  | nil : IsChars []
  | plain {c : Char} (hquote : c ≠ '"') (hslash : c ≠ '\\') (hcontrol : 0x20 ≤ c.toNat)
      {cs : List Char} (h : IsChars cs) : IsChars (c :: cs)
  | escape {c : Char} (hc : c ∈ escapes) {cs : List Char} (h : IsChars cs) :
      IsChars ('\\' :: c :: cs)
  | code {ds : List Char} (hlength : ds.length = 4)
      (hds : ∀ d ∈ ds, (Text.hexValue? d).isSome = true) {cs : List Char} (h : IsChars cs) :
      IsChars ('\\' :: 'u' :: ds ++ cs)

/-- A string. -/
inductive IsString : List Char → Prop
  | string {cs : List Char} (h : IsChars cs) : IsString ('"' :: cs ++ ['"'])

/-! ### Values -/

/-- A mark of the grammar, with space around it. -/
structure Mark (sign : Char) where
  before : List Char
  after : List Char
  space_before : IsSpace before
  space_after : IsSpace after

/-- A mark without space around it. -/
def Mark.bare {sign : Char} : Mark sign := ⟨[], [], by decide, by decide⟩

/-- The mark as text. -/
def Mark.text {sign : Char} (m : Mark sign) : List Char := m.before ++ sign :: m.after

/-- A member of an object. -/
structure Member where
  name : List Char
  colon : Mark ':'
  value : List Char

/-- The member as text. -/
def Member.text (m : Member) : List Char := m.name ++ m.colon.text ++ m.value

/-- A list that is not empty: parts with commas between them. -/
structure Listed (α : Type) where
  first : α
  rest : List (Mark ',' × α)

namespace Listed

variable {α : Type}

/-- The parts of a list. -/
def parts (l : Listed α) : List α := l.first :: l.rest.map Prod.snd

/-- The list as text, its parts having the given texts. -/
def text (textOf : α → List Char) (l : Listed α) : List Char :=
  textOf l.first ++ l.rest.flatMap fun r => r.1.text ++ textOf r.2

end Listed

/-- The values that are words. -/
def words : List (List Char) :=
  [['n', 'u', 'l', 'l'], ['t', 'r', 'u', 'e'], ['f', 'a', 'l', 's', 'e']]

/-- The text is a value. -/
inductive IsValue : List Char → Prop
  | word {cs : List Char} (h : cs ∈ words) : IsValue cs
  | number {cs : List Char} (h : IsNumber cs) : IsValue cs
  | string {cs : List Char} (h : IsString cs) : IsValue cs
  | emptyArray (opening : Mark '[') (closing : Mark ']') : IsValue (opening.text ++ closing.text)
  | array (opening : Mark '[') (items : Listed (List Char)) (closing : Mark ']')
      (h : ∀ v ∈ items.parts, IsValue v) :
      IsValue (opening.text ++ items.text id ++ closing.text)
  | emptyObject (opening : Mark '{') (closing : Mark '}') : IsValue (opening.text ++ closing.text)
  | object (opening : Mark '{') (members : Listed Member) (closing : Mark '}')
      (hnames : ∀ m ∈ members.parts, IsString m.name)
      (hvalues : ∀ m ∈ members.parts, IsValue m.value) :
      IsValue (opening.text ++ members.text Member.text ++ closing.text)

/-- The text is standard JSON: one value, with space around it or none. -/
def IsText (cs : List Char) : Prop :=
  ∃ before value after, IsSpace before ∧ IsValue value ∧ IsSpace after ∧
    cs = before ++ value ++ after

/-! ### Outside of strings -/

/-- Where the reader of a text is: outside of strings, inside of one, or behind a backslash. -/
inductive Reader where
  | outside
  | inside
  | escaped
deriving DecidableEq, Repr

/-- Where the reader is after a character. -/
def Reader.next : Reader → Char → Reader
  | outside, c => if c = '"' then inside else outside
  | inside, c => if c = '"' then outside else if c = '\\' then escaped else inside
  | escaped, _ => inside

/-- The characters with which `NaN` and `Infinity` begin. -/
def isCapital (c : Char) : Bool := c = 'N' || c = 'I'

/-- The reader comes to a capital outside of strings. -/
def capital : Reader → List Char → Bool
  | _, [] => false
  | r, c :: cs => (decide (r = .outside) && isCapital c) || capital (r.next c) cs

/-- A part of a text that begins and ends outside of strings has a capital there, or none. -/
def Shows (found : Bool) (cs : List Char) : Prop :=
  ∀ rest, capital .outside (cs ++ rest) = (found || capital .outside rest)

namespace Shows

variable {b c : Bool} {xs ys : List Char}

theorem nil : Shows false [] := fun _ => rfl

theorem char {sign : Char} (h : sign ≠ '"' ∧ isCapital sign = false) : Shows false [sign] := by
  intro rest
  have hnext : Reader.outside.next sign = .outside := if_neg h.1
  rw [List.singleton_append, capital, hnext, h.2, Bool.and_false]

theorem append (hx : Shows b xs) (hy : Shows c ys) : Shows (b || c) (xs ++ ys) := by
  intro rest
  rw [List.append_assoc, hx, hy, Bool.or_assoc]

/-- What is plain has no capital. -/
theorem of_plain (h : ∀ c ∈ xs, c ≠ '"' ∧ isCapital c = false) : Shows false xs := by
  induction xs with
  | nil => exact nil
  | cons c xs ih =>
    obtain ⟨hc, hxs⟩ := List.forall_mem_cons.mp h
    exact (char hc).append (ih hxs)

/-- A text does not both show a capital and none. -/
theorem unique (hb : Shows b xs) (hc : Shows c xs) : b = c := by
  have h := (hb []).symm.trans (hc [])
  rwa [capital, Bool.or_false, Bool.or_false] at h

end Shows

/-! ### What the grammar shows -/

theorem IsSpace.shows {cs : List Char} (h : IsSpace cs) : Shows false cs := by
  refine .of_plain fun c hc => ?_
  have hspace := h c hc
  simp only [isSpace, Bool.or_eq_true, decide_eq_true_eq] at hspace
  rcases hspace with ((rfl | rfl) | rfl) | rfl <;> decide

theorem shows_of_digits {cs : List Char} (h : ∀ c ∈ cs, c.isDigit = true) : Shows false cs := by
  refine .of_plain fun c hc => ?_
  have hdigit := h c hc
  refine ⟨?_, ?_⟩
  · rintro rfl
    cases hdigit
  · rw [← Bool.not_eq_true, isCapital, Bool.or_eq_true, decide_eq_true_eq, decide_eq_true_eq]
    rintro (rfl | rfl) <;> cases hdigit

theorem IsWhole.shows {cs : List Char} (h : IsWhole cs) : Shows false cs := by
  cases h with
  | zero => exact .char (by decide)
  | digits hd hne hds => exact shows_of_digits (List.forall_mem_cons.mpr ⟨hd, hds⟩)

theorem IsFraction.shows {cs : List Char} (h : IsFraction cs) : Shows false cs := by
  cases h with
  | none => exact .nil
  | some hds => exact (Shows.char (by decide)).append (shows_of_digits hds.2)

theorem IsPower.shows {cs : List Char} (h : IsPower cs) : Shows false cs := by
  cases h with
  | none => exact .nil
  | @some e he sign ds hs hds =>
    have hmark : Shows false [e] := by
      rcases he with rfl | rfl
      · exact .char (by decide)
      · exact .char (by decide)
    have hsign : Shows false sign := by
      rcases hs with rfl | rfl | rfl
      · exact .nil
      · exact .char (by decide)
      · exact .char (by decide)
    exact (hmark.append hsign).append (shows_of_digits hds.2)

theorem IsNumber.shows {cs : List Char} (h : IsNumber cs) : Shows false cs := by
  cases h with
  | @number sign whole fraction power hs hw hf hp =>
    have hsign : Shows false sign := by
      rcases hs with rfl | rfl
      · exact .nil
      · exact .char (by decide)
    exact ((hsign.append hw.shows).append hf.shows).append hp.shows

/-- A character that is neither a quote nor a backslash leaves the reader inside the string. -/
theorem capital_inside_cons {c : Char} (hquote : c ≠ '"') (hslash : c ≠ '\\') (rest : List Char) :
    capital .inside (c :: rest) = capital .inside rest := by
  simp [capital, Reader.next, hquote, hslash]

theorem capital_inside_hex {ds : List Char} (h : ∀ d ∈ ds, (Text.hexValue? d).isSome = true)
    (rest : List Char) : capital .inside (ds ++ rest) = capital .inside rest := by
  induction ds with
  | nil => rfl
  | cons d ds ih =>
    obtain ⟨hd, hds⟩ := List.forall_mem_cons.mp h
    have hquote : d ≠ '"' := by
      rintro rfl
      cases hd
    have hslash : d ≠ '\\' := by
      rintro rfl
      cases hd
    rw [List.cons_append, capital_inside_cons hquote hslash, ih hds]

/-- The reader stays inside the string until its quote. -/
theorem IsChars.capital_inside {cs : List Char} (h : IsChars cs) (rest : List Char) :
    capital .inside (cs ++ rest) = capital .inside rest := by
  induction h with
  | nil => rfl
  | plain hquote hslash hcontrol h ih =>
    rw [List.cons_append, capital_inside_cons hquote hslash, ih]
  | escape hc h ih => simp [capital, Reader.next, ih]
  | @code ds hlength hds cs h ih =>
    have hcode : capital .inside (ds ++ (cs ++ rest)) = capital .inside rest := by
      rw [capital_inside_hex hds, ih]
    simp [capital, Reader.next, hcode]

theorem IsString.shows {cs : List Char} (h : IsString cs) : Shows false cs := by
  obtain ⟨h⟩ := h
  intro rest
  have hinside := h.capital_inside ('"' :: rest)
  simp only [List.cons_append, List.append_assoc, List.nil_append, capital, Reader.next]
    at hinside ⊢
  simp [hinside, isCapital]

/-- A mark shows no capital, unless it is one. -/
theorem Mark.shows {sign : Char} (m : Mark sign) (h : sign ≠ '"' ∧ isCapital sign = false) :
    Shows false m.text :=
  m.space_before.shows.append ((Shows.char h).append m.space_after.shows)

/-- A list shows no capital if its parts show none. -/
theorem Listed.shows {α : Type} {textOf : α → List Char} {l : Listed α}
    (h : ∀ a ∈ l.parts, Shows false (textOf a)) : Shows false (l.text textOf) := by
  obtain ⟨first, rest⟩ := l
  obtain ⟨hfirst, hrest⟩ := List.forall_mem_cons.mp h
  refine hfirst.append ?_
  clear h hfirst
  induction rest with
  | nil => exact .nil
  | cons r rest ih =>
    rw [List.map_cons] at hrest
    obtain ⟨hr, hrest⟩ := List.forall_mem_cons.mp hrest
    rw [List.flatMap_cons]
    exact ((r.1.shows (by decide)).append hr).append (ih hrest)

/-- **Capitals.**  Outside of its strings, standard JSON has no capital `N` and no capital `I`. -/
theorem IsValue.shows {cs : List Char} (h : IsValue cs) : Shows false cs := by
  induction h with
  | word h =>
    have hplain : ∀ w ∈ words, ∀ c ∈ w, c ≠ '"' ∧ isCapital c = false := by
      simp [words, isCapital]
    exact .of_plain (hplain _ h)
  | number h => exact h.shows
  | string h => exact h.shows
  | emptyArray opening closing =>
    exact (opening.shows (by decide)).append (closing.shows (by decide))
  | array opening items closing h ih =>
    have hitems : Shows false (items.text id) := Listed.shows ih
    exact ((opening.shows (by decide)).append hitems).append (closing.shows (by decide))
  | emptyObject opening closing =>
    exact (opening.shows (by decide)).append (closing.shows (by decide))
  | object opening members closing hnames hvalues ih =>
    have hmembers : Shows false (members.text Member.text) := by
      refine Listed.shows fun m hm => ?_
      exact ((hnames m hm).shows.append (m.colon.shows (by decide))).append (ih m hm)
    exact ((opening.shows (by decide)).append hmembers).append (closing.shows (by decide))

theorem IsText.shows {cs : List Char} (h : IsText cs) : Shows false cs := by
  obtain ⟨before, value, after, hbefore, hvalue, hafter, rfl⟩ := h
  exact (hbefore.shows.append hvalue.shows).append hafter.shows

end ApiOutline.Json
