/-
ApiOutline/Proofs/Numeral.lean

Numbers as they are written, and their exact values.

Design.  A numeral has a sign, digits, a point with digits behind it and a power of ten; its
value is a rational (`Numeral.value`).  A literal may spell a numeral in several ways: with
padding around it, with digits of other scripts, and with underscores between digits (`Spells`).
Neither is said through the readers.  A reader that takes a text apart is met by a lemma for each
part: what is put together from parts is taken apart into them (`splitPoint_append_point`,
`signed_text`), and what is taken apart was put together (`exists_fraction`, `exists_sign`).

Main results: `Writes.read?`, `exists_numeral`, `readInteger?_eq_some_iff`.
-/
import Mathlib
import ApiOutline.Number.Literal

namespace ApiOutline.Literal

/-! ### Spelling -/

/-- The last character is a digit; of no characters it is said what stands in front. -/
def endsInDigit (afterDigit : Bool) (cs : List Char) : Bool :=
  (cs.getLast?.map Char.isDigit).getD afterDigit

/-- Underscores stand between digits only; `afterDigit` says whether a digit stands in front. -/
def JoinsDigits (afterDigit : Bool) (cs : List Char) : Prop :=
  ∀ a b, cs = a ++ '_' :: b →
    endsInDigit afterDigit a = true ∧ ∃ d ∈ b.head?, d.isDigit = true

theorem joinsDigits_nil (afterDigit : Bool) : JoinsDigits afterDigit [] := by
  intro a b h
  simp at h

theorem endsInDigit_cons (afterDigit : Bool) (c : Char) (cs : List Char) :
    endsInDigit afterDigit (c :: cs) = endsInDigit c.isDigit cs := by
  cases cs with
  | nil => rfl
  | cons d ds =>
    rw [endsInDigit, endsInDigit, List.getLast?_cons_cons]
    simp [List.getLast?_cons]

theorem joinsDigits_cons {afterDigit : Bool} {c : Char} (hc : c ≠ '_') (cs : List Char) :
    JoinsDigits afterDigit (c :: cs) ↔ JoinsDigits c.isDigit cs := by
  constructor
  · rintro h a b rfl
    have hsplit := h (c :: a) b rfl
    rwa [endsInDigit_cons] at hsplit
  · intro h a b hsplit
    rcases a with - | ⟨d, a⟩
    · exact absurd (List.cons.inj hsplit).1 hc
    · obtain ⟨rfl, htail⟩ := List.cons.inj hsplit
      rw [endsInDigit_cons]
      exact h a b htail

theorem joinsDigits_underscore {afterDigit : Bool} {c : Char} (cs : List Char) :
    JoinsDigits afterDigit ('_' :: c :: cs) ↔
      afterDigit = true ∧ c.isDigit = true ∧ JoinsDigits true cs := by
  constructor
  · intro h
    obtain ⟨hafter, d, hd, hdigit⟩ := h [] (c :: cs) rfl
    obtain rfl := Option.some.inj hd
    refine ⟨hafter, hdigit, ?_⟩
    rintro a b rfl
    have hsplit := h ('_' :: c :: a) b rfl
    rwa [endsInDigit_cons, endsInDigit_cons, hdigit] at hsplit
  · rintro ⟨hafter, hdigit, h⟩ a b hsplit
    rcases a with - | ⟨d, - | ⟨e, a⟩⟩
    · obtain ⟨-, rfl⟩ := List.cons.inj hsplit
      exact ⟨hafter, c, rfl, hdigit⟩
    · obtain ⟨-, hsplit⟩ := List.cons.inj hsplit
      obtain ⟨rfl, -⟩ := List.cons.inj hsplit
      cases hdigit
    · obtain ⟨-, hbehind⟩ := List.cons.inj hsplit
      obtain ⟨rfl, htail⟩ := List.cons.inj hbehind
      rw [endsInDigit_cons, endsInDigit_cons, hdigit]
      exact h a b htail

/-- Underscores are dropped where they stand between digits. -/
theorem joinDigits?_eq_some_iff (afterDigit : Bool) (cs ds : List Char) :
    joinDigits? afterDigit cs = some ds ↔
      JoinsDigits afterDigit cs ∧ cs.filter (· ≠ '_') = ds := by
  have hkept : ∀ {c : Char} {cs : List Char}, c ≠ '_' →
      (c :: cs).filter (· ≠ '_') = c :: cs.filter (· ≠ '_') := by
    intro c cs hc
    rw [List.filter_cons_of_pos (by simpa using hc)]
  have hdropped : ∀ cs : List Char, ('_' :: cs).filter (· ≠ '_') = cs.filter (· ≠ '_') :=
    fun cs => List.filter_cons_of_neg (by simp)
  -- the reader takes an underscore together with the digit behind it
  fun_induction joinDigits? afterDigit cs generalizing ds with
  | case1 afterDigit => simp [joinsDigits_nil, eq_comm]
  | case2 afterDigit c cs h ih =>
    rw [Bool.and_eq_true] at h
    have hc : c ≠ '_' := by
      rintro rfl
      cases h.2
    rw [hdropped, hkept hc, joinsDigits_underscore, Option.map_eq_some_iff]
    simp only [ih, h.1, h.2, true_and]
    exact ⟨fun ⟨_, ⟨hjoins, hcs⟩, hds⟩ => ⟨hjoins, hcs ▸ hds⟩,
      fun ⟨hjoins, hds⟩ => ⟨_, ⟨hjoins, rfl⟩, hds⟩⟩
  | case3 afterDigit c cs h =>
    rw [joinsDigits_underscore]
    refine iff_of_false (by rintro ⟨⟩) ?_
    rintro ⟨⟨hafter, hdigit, -⟩, -⟩
    exact h (by rw [hafter, hdigit]; rfl)
  | case4 afterDigit =>
    refine iff_of_false (by rintro ⟨⟩) ?_
    rintro ⟨hjoins, -⟩
    obtain ⟨-, d, hd, -⟩ := hjoins [] [] rfl
    cases hd
  | case5 afterDigit c cs hmore hlast ih =>
    have hc : c ≠ '_' := by
      rintro rfl
      cases cs with
      | nil => exact hlast rfl rfl
      | cons d ds => exact hmore d ds rfl rfl
    rw [hkept hc, joinsDigits_cons hc, Option.map_eq_some_iff]
    simp only [ih]
    exact ⟨fun ⟨_, ⟨hjoins, hcs⟩, hds⟩ => ⟨hjoins, hcs ▸ hds⟩,
      fun ⟨hjoins, hds⟩ => ⟨_, ⟨hjoins, rfl⟩, hds⟩⟩

/-- Padding around a text is dropped. -/
theorem trim_append {before body after : List Char} (hbefore : ∀ c ∈ before, isPadding c = true)
    (hafter : ∀ c ∈ after, isPadding c = true) (hbody : ∀ c ∈ body, isPadding c = false) :
    trim (before ++ body ++ after) = body := by
  have hkept : ∀ (rest : List Char) {cs : List Char}, cs ≠ [] → (∀ c ∈ cs, isPadding c = false) →
      (cs ++ rest).dropWhile isPadding = cs ++ rest := by
    intro rest cs hne hcs
    obtain ⟨c, cs, rfl⟩ := List.exists_cons_of_ne_nil hne
    exact List.dropWhile_cons_of_neg (by simp [hcs c List.mem_cons_self])
  rw [trim, List.append_assoc, List.dropWhile_append_of_pos hbefore]
  -- a body without characters stops neither the trimming from the front nor that from behind
  by_cases hne : body = []
  · have hnone : after.dropWhile isPadding = [] := List.dropWhile_eq_nil_iff.mpr hafter
    rw [hne, List.nil_append, hnone]
    rfl
  · have hbehind : ∀ c ∈ after.reverse, isPadding c = true :=
      fun c hc => hafter c (List.mem_reverse.mp hc)
    have hreverse := hkept [] (List.reverse_ne_nil_iff.mpr hne)
      fun c hc => hbody c (List.mem_reverse.mp hc)
    rw [List.append_nil] at hreverse
    rw [hkept after hne hbody, List.reverse_append, List.dropWhile_append_of_pos hbehind, hreverse,
      List.reverse_reverse]

/-- Nothing but padding is dropped. -/
theorem exists_trim (cs : List Char) :
    ∃ before after, cs = before ++ trim cs ++ after ∧
      ∀ c ∈ before ++ after, isPadding c = true := by
  have hsplit : cs.dropWhile isPadding = trim cs ++
      ((cs.dropWhile isPadding).reverse.takeWhile isPadding).reverse := by
    rw [trim, ← List.reverse_append, List.takeWhile_append_dropWhile, List.reverse_reverse]
  refine ⟨cs.takeWhile isPadding,
    ((cs.dropWhile isPadding).reverse.takeWhile isPadding).reverse, ?_, ?_⟩
  · rw [List.append_assoc, ← hsplit, List.takeWhile_append_dropWhile]
  · intro c hc
    rcases List.mem_append.mp hc with hc | hc
    · exact List.mem_takeWhile_imp hc
    · exact List.mem_takeWhile_imp (List.mem_reverse.mp hc)

/-- A literal spells a text: there is padding around it, digits of any script stand for those of
ASCII, and underscores stand between digits. -/
def Spells (literal text : List Char) : Prop :=
  ∃ before body after, literal.map plainChar = before ++ body ++ after ∧
    (∀ c ∈ before ++ after, isPadding c = true) ∧ JoinsDigits false body ∧
      body.filter (· ≠ '_') = text

/-- A literal is brought to the text without padding that it spells. -/
theorem prepare?_eq_some_iff {literal text : List Char}
    (htext : ∀ c ∈ text, isPadding c = false) :
    prepare? literal = some text ↔ Spells literal text := by
  rw [prepare?, joinDigits?_eq_some_iff]
  constructor
  · rintro ⟨hjoins, hfilter⟩
    obtain ⟨before, after, hsplit, hpadding⟩ := exists_trim (literal.map plainChar)
    exact ⟨before, _, after, hsplit, hpadding, hjoins, hfilter⟩
  · rintro ⟨before, body, after, hsplit, hpadding, hjoins, rfl⟩
    obtain ⟨hbefore, hafter⟩ := List.forall_mem_append.mp hpadding
    have hbody : ∀ c ∈ body, isPadding c = false := by
      intro c hc
      by_cases hunderscore : c = '_'
      · rw [hunderscore]
        rfl
      · exact htext c (List.mem_filter.mpr ⟨hc, by simpa using hunderscore⟩)
    rw [hsplit, trim_append hbefore hafter hbody]
    exact ⟨hjoins, rfl⟩

/-! ### Numerals -/

/-- The sign in front of a number, if there is one. -/
inductive Sign where
  | none
  | plus
  | minus
deriving DecidableEq

namespace Sign

def text : Sign → List Char
  | none => []
  | plus => ['+']
  | minus => ['-']

def isNegative : Sign → Bool
  | minus => true
  | _ => false

end Sign

/-- A power of ten: a letter, a sign and digits. -/
structure Power where
  letter : Char
  sign : Sign
  digits : List Char
  isLetter : letter = 'e' ∨ letter = 'E'
  nonempty : digits ≠ []
  allDigits : ∀ c ∈ digits, c.isDigit = true

namespace Power

def text (p : Power) : List Char := p.letter :: (p.sign.text ++ p.digits)

def exponent (p : Power) : Int := withSign p.sign.isNegative (digitsValue p.digits)

end Power

/-- A decimal number as it is written: a sign, digits, a point with digits behind it, and a power
of ten.  All but the digits may be left out, and those on one side of a point. -/
structure Numeral where
  sign : Sign
  whole : List Char
  fraction? : Option (List Char)
  power? : Option Power
  nonempty : whole ++ fraction?.getD [] ≠ []
  allDigits : ∀ c ∈ whole ++ fraction?.getD [], c.isDigit = true

namespace Numeral

/-- The digits behind the point. -/
def fraction (n : Numeral) : List Char := n.fraction?.getD []

def pointText (n : Numeral) : List Char := n.fraction?.elim [] ('.' :: ·)

def powerText (n : Numeral) : List Char := n.power?.elim [] Power.text

/-- The numeral without its sign. -/
def body (n : Numeral) : List Char := n.whole ++ (n.pointText ++ n.powerText)

def text (n : Numeral) : List Char := n.sign.text ++ n.body

def exponent (n : Numeral) : Int := n.power?.elim 0 Power.exponent

/-- The exact value of a numeral. -/
def value (n : Numeral) : ℚ :=
  (if n.sign.isNegative then -1 else 1) *
    ((digitsValue n.whole + digitsValue n.fraction / 10 ^ n.fraction.length) * 10 ^ n.exponent)

/-- The numeral has neither a point nor a power of ten. -/
def IsWhole (n : Numeral) : Prop := n.fraction? = none ∧ n.power? = none

end Numeral

/-- The literal writes a number. -/
def Writes (literal : List Char) (n : Numeral) : Prop := Spells literal n.text

/-! ### Reading numerals -/

theorem digitsValue_append (a b : List Char) :
    digitsValue (a ++ b) = 10 ^ b.length * digitsValue a + digitsValue b := by
  rw [digitsValue, Nat.ofDigitChars_append, Nat.ofDigitChars_eq_ofDigitChars_zero]
  rfl

theorem signed_of_isDigit {c : Char} {cs : List Char} (h : c.isDigit = true) :
    signed (c :: cs) = (false, c :: cs) := by
  rw [signed]
  · rintro _ ⟨⟩
    cases h
  · rintro _ ⟨⟩
    cases h

/-- A sign is read if what follows does not begin with one. -/
theorem signed_text (s : Sign) {cs : List Char} (h : signed cs = (false, cs)) :
    signed (s.text ++ cs) = (s.isNegative, cs) := by
  cases s with
  | none => exact h
  | plus => rfl
  | minus => rfl

theorem exists_sign (cs : List Char) :
    ∃ s : Sign, s.text ++ (signed cs).2 = cs ∧ s.isNegative = (signed cs).1 := by
  unfold signed
  split
  · exact ⟨.minus, rfl, rfl⟩
  · exact ⟨.plus, rfl, rfl⟩
  · exact ⟨.none, rfl, rfl⟩

/-- The power of ten at the end of a number is what its text says. -/
theorem readExponent?_eq_some_iff {cs : List Char} {e : Int} :
    readExponent? cs = some e ↔
      ∃ p? : Option Power, p?.elim [] Power.text = cs ∧ p?.elim 0 Power.exponent = e := by
  constructor
  · intro h
    rcases cs with - | ⟨c, cs⟩
    · exact ⟨none, rfl, Option.some.inj h⟩
    · rw [readExponent?] at h
      split at h
      · rename_i hletter
        obtain ⟨s, hs, hnegative⟩ := exists_sign cs
        rcases hsigned : signed cs with ⟨negative, ds⟩
        rw [hsigned] at h hs hnegative
        dsimp only at h hs hnegative
        split at h
        · rename_i hdigits
          refine ⟨some ⟨c, s, ds, hletter, hdigits.1, List.all_eq_true.mp hdigits.2⟩,
            congrArg (c :: ·) hs, ?_⟩
          rw [← Option.some.inj h, ← hnegative]
          rfl
        · cases h
      · cases h
  · rintro ⟨- | p, rfl, rfl⟩
    · rfl
    · obtain ⟨d, ds, hds⟩ := List.exists_cons_of_ne_nil p.nonempty
      have hsigned : signed (p.sign.text ++ p.digits) = (p.sign.isNegative, p.digits) := by
        refine signed_text _ ?_
        rw [hds]
        exact signed_of_isDigit (p.allDigits d (by rw [hds]; exact List.mem_cons_self))
      show readExponent? (p.letter :: (p.sign.text ++ p.digits)) = some p.exponent
      rw [readExponent?, if_pos p.isLetter, hsigned]
      exact if_pos ⟨p.nonempty, List.all_eq_true.mpr p.allDigits⟩

theorem span_digits {ds rest : List Char} (hds : ∀ c ∈ ds, c.isDigit = true)
    (hrest : ∀ c ∈ rest.head?, c.isDigit = false) :
    (ds ++ rest).span Char.isDigit = (ds, rest) := by
  rw [List.span_eq_takeWhile_dropWhile, List.takeWhile_append_of_pos hds,
    List.dropWhile_append_of_pos hds]
  rcases rest with - | ⟨c, cs⟩
  · simp
  · have hc : ¬ c.isDigit = true := by simp [hrest c rfl]
    rw [List.takeWhile_cons_of_neg hc, List.dropWhile_cons_of_neg hc, List.append_nil]

/-- Without a point there are no digits behind it. -/
theorem splitPoint_append {whole rest : List Char} (hwhole : ∀ c ∈ whole, c.isDigit = true)
    (hrest : ∀ c ∈ rest.head?, c.isDigit = false ∧ c ≠ '.') :
    splitPoint (whole ++ rest) = (whole, [], rest) := by
  rw [splitPoint, span_digits hwhole fun c hc => (hrest c hc).1]
  dsimp only
  split
  · rename_i cs
    exact absurd rfl (hrest '.' rfl).2
  · rfl

theorem splitPoint_append_point {whole ds rest : List Char}
    (hwhole : ∀ c ∈ whole, c.isDigit = true) (hds : ∀ c ∈ ds, c.isDigit = true)
    (hrest : ∀ c ∈ rest.head?, c.isDigit = false) :
    splitPoint (whole ++ '.' :: (ds ++ rest)) = (whole, ds, rest) := by
  have hpoint : ∀ c ∈ ('.' :: (ds ++ rest)).head?, c.isDigit = false := by
    rintro c ⟨⟩
    rfl
  rw [splitPoint, span_digits hwhole hpoint]
  show (whole, ((ds ++ rest).span Char.isDigit).1, ((ds ++ rest).span Char.isDigit).2) = _
  rw [span_digits hds hrest]

namespace Numeral

variable (n : Numeral)

theorem head?_powerText : ∀ c ∈ n.powerText.head?, c.isDigit = false ∧ c ≠ '.' := by
  rw [powerText]
  rcases n.power? with - | p
  · rintro c ⟨⟩
  · intro c hc
    obtain rfl := Option.some.inj hc
    rcases p.isLetter with h | h <;> rw [h] <;> decide

theorem splitPoint_body : splitPoint n.body = (n.whole, n.fraction, n.powerText) := by
  obtain ⟨hwhole, hfraction⟩ := List.forall_mem_append.mp n.allDigits
  rw [body, pointText, fraction]
  rcases hpoint : n.fraction? with - | ds
  · exact splitPoint_append hwhole n.head?_powerText
  · rw [hpoint] at hfraction
    exact splitPoint_append_point hwhole hfraction fun c hc => (n.head?_powerText c hc).1

theorem readDecimal?_body (negative : Bool) :
    readDecimal? negative n.body = some (.decimal negative (digitsValue (n.whole ++ n.fraction))
      (n.exponent - n.fraction.length)) := by
  have hexponent : readExponent? n.powerText = some n.exponent :=
    readExponent?_eq_some_iff.mpr ⟨n.power?, rfl, rfl⟩
  have hdigits : ¬ (n.whole = [] ∧ n.fraction = []) :=
    fun ⟨hwhole, hfraction⟩ => n.nonempty (List.append_eq_nil_iff.mpr ⟨hwhole, hfraction⟩)
  rw [readDecimal?, n.splitPoint_body]
  dsimp only
  rw [if_neg hdigits, hexponent]
  rfl

end Numeral

theorem span_eq {cs ds rest : List Char} (h : cs.span Char.isDigit = (ds, rest)) :
    cs = ds ++ rest ∧ ∀ c ∈ ds, c.isDigit = true := by
  rw [List.span_eq_takeWhile_dropWhile] at h
  obtain ⟨rfl, rfl⟩ := Prod.mk.inj h
  exact ⟨List.takeWhile_append_dropWhile.symm, fun c hc => List.mem_takeWhile_imp hc⟩

/-- What is split at a point are digits and what follows them. -/
theorem exists_fraction {cs whole fraction rest : List Char}
    (h : splitPoint cs = (whole, fraction, rest)) :
    ∃ fraction? : Option (List Char), cs = whole ++ (fraction?.elim [] ('.' :: ·) ++ rest) ∧
      fraction?.getD [] = fraction ∧ ∀ c ∈ whole ++ fraction, c.isDigit = true := by
  rw [splitPoint] at h
  rcases hspan : cs.span Char.isDigit with ⟨ds, behind⟩
  obtain ⟨rfl, hds⟩ := span_eq hspan
  rw [hspan] at h
  dsimp only at h
  split at h
  · rename_i behind'
    rcases hspan' : behind'.span Char.isDigit with ⟨es, last⟩
    obtain ⟨rfl, hes⟩ := span_eq hspan'
    rw [hspan'] at h
    obtain ⟨rfl, hrest⟩ := Prod.mk.inj h
    obtain ⟨rfl, rfl⟩ := Prod.mk.inj hrest
    exact ⟨some es, rfl, rfl, List.forall_mem_append.mpr ⟨hds, hes⟩⟩
  · obtain ⟨rfl, hrest⟩ := Prod.mk.inj h
    obtain ⟨rfl, rfl⟩ := Prod.mk.inj hrest
    exact ⟨none, rfl, rfl, by rwa [List.append_nil]⟩

/-- A decimal that is read is written as a numeral, whatever its sign. -/
theorem exists_body {negative : Bool} {cs : List Char} {r : Real}
    (h : readDecimal? negative cs = some r) (s : Sign) :
    ∃ n : Numeral, n.sign = s ∧ n.body = cs := by
  rcases hsplit : splitPoint cs with ⟨whole, fraction, rest⟩
  obtain ⟨fraction?, hcs, hfraction, hdigits⟩ := exists_fraction hsplit
  rw [readDecimal?, hsplit] at h
  dsimp only at h
  split at h
  · cases h
  · rename_i hnonempty
    obtain ⟨e, he, -⟩ := Option.bind_eq_some_iff.mp h
    obtain ⟨power?, hpower, -⟩ := readExponent?_eq_some_iff.mp he
    rw [← hfraction] at hdigits hnonempty
    refine ⟨⟨s, whole, fraction?, power?, ?_, hdigits⟩, rfl, ?_⟩
    · rwa [Ne, List.append_eq_nil_iff]
    · rw [hcs, ← hpower]
      rfl

theorem toNat_of_isDigit {c : Char} (h : c.isDigit = true) : 0x30 ≤ c.toNat ∧ c.toNat ≤ 0x39 := by
  rw [Char.isDigit, Bool.and_eq_true, decide_eq_true_eq, decide_eq_true_eq] at h
  exact h

theorem isPadding_of_isDigit {c : Char} (h : c.isDigit = true) : isPadding c = false := by
  obtain ⟨hlow, hhigh⟩ := toNat_of_isDigit h
  simp only [isPadding, Bool.or_eq_false_iff, Bool.and_eq_false_iff, decide_eq_false_iff_not]
  omega

theorem toLower_of_isDigit {c : Char} (h : c.isDigit = true) : c.toLower = c := by
  rw [Char.toLower, dif_neg]
  rintro ⟨hletter, -⟩
  have hle : 0x41 ≤ c.toNat := hletter
  have hdigit := (toNat_of_isDigit h).2
  omega

namespace Numeral

variable (n : Numeral)

theorem exists_digit : ∃ d ∈ n.body, d.isDigit = true := by
  obtain ⟨d, ds, hds⟩ := List.exists_cons_of_ne_nil n.nonempty
  have hd : d ∈ n.whole ++ n.fraction?.getD [] := by
    rw [hds]
    exact List.mem_cons_self
  refine ⟨d, ?_, n.allDigits d hd⟩
  rw [body, pointText]
  rcases List.mem_append.mp hd with hd | hd
  · exact List.mem_append_left _ hd
  · rcases hpoint : n.fraction? with - | es
    · rw [hpoint] at hd
      cases hd
    · rw [hpoint] at hd
      exact List.mem_append_right _ (List.mem_append_left _ (List.mem_cons_of_mem _ hd))

/-- A text without digits is not what a numeral writes, in letters of either case. -/
theorem map_toLower_body_ne {word : List Char} (h : word.any Char.isDigit = false) :
    n.body.map Char.toLower ≠ word := by
  rintro rfl
  obtain ⟨d, hd, hdigit⟩ := n.exists_digit
  refine List.any_eq_false.mp h d.toLower (List.mem_map_of_mem hd) ?_
  rw [toLower_of_isDigit hdigit, hdigit]

/-- Without its sign a numeral begins with a digit or with a point. -/
theorem signed_body : signed n.body = (false, n.body) := by
  have hnonempty := n.nonempty
  rw [body, pointText]
  rcases hwhole : n.whole with - | ⟨d, ds⟩
  · rcases hpoint : n.fraction? with - | es
    · rw [hwhole, hpoint] at hnonempty
      exact absurd rfl hnonempty
    · rfl
  · refine signed_of_isDigit (n.allDigits d (List.mem_append_left _ ?_))
    rw [hwhole]
    exact List.mem_cons_self

theorem isPadding_text : ∀ c ∈ n.text, isPadding c = false := by
  have hsign : ∀ (s : Sign), ∀ c ∈ s.text, isPadding c = false := by
    intro s
    cases s with
    | none => exact List.forall_mem_nil _
    | plus => exact List.forall_mem_singleton.mpr rfl
    | minus => exact List.forall_mem_singleton.mpr rfl
  have hdigits : ∀ {ds : List Char}, (∀ c ∈ ds, c.isDigit = true) →
      ∀ c ∈ ds, isPadding c = false := fun h c hc => isPadding_of_isDigit (h c hc)
  obtain ⟨hwhole, hfraction⟩ := List.forall_mem_append.mp n.allDigits
  rw [text, body]
  refine List.forall_mem_append.mpr ⟨hsign n.sign, List.forall_mem_append.mpr ⟨hdigits hwhole,
    List.forall_mem_append.mpr ⟨?_, ?_⟩⟩⟩
  · rw [pointText]
    rcases hpoint : n.fraction? with - | ds
    · exact List.forall_mem_nil _
    · rw [hpoint] at hfraction
      exact List.forall_mem_cons.mpr ⟨rfl, hdigits hfraction⟩
  · rw [powerText]
    rcases n.power? with - | p
    · exact List.forall_mem_nil _
    · have hletter : isPadding p.letter = false := by
        rcases p.isLetter with h | h <;> rw [h] <;> rfl
      exact List.forall_mem_cons.mpr ⟨hletter,
        List.forall_mem_append.mpr ⟨hsign p.sign, hdigits p.allDigits⟩⟩

theorem signed_text : signed n.text = (n.sign.isNegative, n.body) :=
  Literal.signed_text n.sign n.signed_body

/-- The digits may be read as one number, the point being moved behind them. -/
theorem value_eq : n.value = (if n.sign.isNegative then -1 else 1) *
    (digitsValue (n.whole ++ n.fraction) * 10 ^ (n.exponent - n.fraction.length)) := by
  have hten : (10 : ℚ) ^ n.fraction.length ≠ 0 := pow_ne_zero _ (by norm_num)
  rw [value, digitsValue_append, zpow_sub₀ (by norm_num), zpow_natCast]
  push_cast
  field_simp

variable {n}

/-- The value of a numeral without a point and a power of ten is the whole number of its digits. -/
theorem IsWhole.value (h : n.IsWhole) :
    n.value = (withSign n.sign.isNegative (digitsValue n.whole) : ℚ) := by
  have hfraction : n.fraction = [] := by rw [fraction, h.1, Option.getD_none]
  have hexponent : n.exponent = 0 := by rw [exponent, h.2, Option.elim_none]
  rw [value_eq, hfraction, hexponent, List.append_nil, List.length_nil, Nat.cast_zero, sub_zero,
    zpow_zero, mul_one, withSign]
  split <;> simp

theorem IsWhole.body (h : n.IsWhole) : n.body = n.whole := by
  rw [Numeral.body, pointText, powerText, h.1, h.2]
  exact List.append_nil _

end Numeral

/-! ### Numerals in literals -/

section Literal

variable {literal : List Char}

theorem prepare?_eq_text_iff {n : Numeral} : prepare? literal = some n.text ↔ Writes literal n :=
  prepare?_eq_some_iff n.isPadding_text

/-- The numeral that a literal writes is read. -/
theorem Writes.read? {n : Numeral} (h : Writes literal n) :
    Real.read? literal = some (.decimal n.sign.isNegative (digitsValue (n.whole ++ n.fraction))
      (n.exponent - n.fraction.length)) := by
  rw [Real.read?, prepare?_eq_text_iff.mpr h, Option.bind_eq_bind, Option.bind_some, n.signed_text]
  dsimp only
  -- the words are tried first, but there is a digit in every numeral
  rw [if_neg (n.map_toLower_body_ne rfl), if_neg, n.readDecimal?_body]
  rintro (hword | hword)
  · exact n.map_toLower_body_ne rfl hword
  · exact n.map_toLower_body_ne rfl hword

/-- What is read as a decimal is the numeral that the literal writes. -/
theorem exists_numeral {negative : Bool} {digits : Nat} {exponent : Int}
    (h : Real.read? literal = some (.decimal negative digits exponent)) :
    ∃ n : Numeral, Writes literal n := by
  obtain ⟨text, htext, h⟩ := Option.bind_eq_some_iff.mp h
  obtain ⟨s, hs, -⟩ := exists_sign text
  rcases hsigned : signed text with ⟨sign, body⟩
  rw [hsigned] at h hs
  dsimp only at h hs
  split at h
  · cases h
  · split at h
    · cases h
    · obtain ⟨n, rfl, rfl⟩ := exists_body h s
      exact ⟨n, prepare?_eq_text_iff.mp (htext.trans (congrArg some hs.symm))⟩

/-- A literal writes one number at most. -/
theorem Writes.value_eq {m n : Numeral} (hm : Writes literal m) (hn : Writes literal n) :
    m.value = n.value := by
  have hread := hm.read?.symm.trans hn.read?
  obtain ⟨hsign, hdigits, hexponent⟩ := Real.decimal.inj (Option.some.inj hread)
  rw [m.value_eq, n.value_eq, hsign, hdigits, hexponent]

/-- Read as whole numbers are the numerals without a point and a power of ten that have not too
many digits. -/
theorem readInteger?_eq_some_iff {v : Int} :
    readInteger? literal = some v ↔
      ∃ n : Numeral, Writes literal n ∧ n.IsWhole ∧ n.whole.length ≤ maxDigits ∧ n.value = v := by
  constructor
  · intro h
    obtain ⟨text, htext, h⟩ := Option.bind_eq_some_iff.mp h
    obtain ⟨s, hs, hnegative⟩ := exists_sign text
    rcases hsigned : signed text with ⟨negative, ds⟩
    rw [hsigned] at h hs hnegative
    dsimp only at h hs hnegative
    split at h
    · rename_i hdigits
      obtain ⟨hne, hall, hlength⟩ := hdigits
      -- all that stands behind the sign are digits
      let n : Numeral :=
        { sign := s
          whole := ds
          fraction? := none
          power? := none
          nonempty := by rwa [Option.getD_none, List.append_nil]
          allDigits := by rwa [Option.getD_none, List.append_nil, ← List.all_eq_true] }
      have hwhole : n.IsWhole := ⟨rfl, rfl⟩
      have hwrites : n.text = text := by
        rw [Numeral.text, hwhole.body]
        exact hs
      refine ⟨n, prepare?_eq_text_iff.mp (htext.trans (congrArg some hwrites.symm)), hwhole,
        hlength, ?_⟩
      rw [hwhole.value, ← Option.some.inj h, ← hnegative]
    · cases h
  · rintro ⟨n, hwrites, hwhole, hlength, hvalue⟩
    have hdigits : n.whole ≠ [] ∧ n.whole.all Char.isDigit = true := by
      have hnonempty := n.nonempty
      have hall := n.allDigits
      rw [hwhole.1, Option.getD_none, List.append_nil] at hnonempty hall
      exact ⟨hnonempty, List.all_eq_true.mpr hall⟩
    rw [readInteger?, prepare?_eq_text_iff.mpr hwrites, Option.bind_eq_bind, Option.bind_some,
      n.signed_text, hwhole.body]
    dsimp only
    rw [if_pos ⟨hdigits.1, hdigits.2, hlength⟩]
    rw [hwhole.value] at hvalue
    exact congrArg some (by exact_mod_cast hvalue)

end Literal

end ApiOutline.Literal
