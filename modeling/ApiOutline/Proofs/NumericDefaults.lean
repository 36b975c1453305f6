/-
ApiOutline/Proofs/NumericDefaults.lean

Defaults of the two types of numbers.

Design.  A literal that writes a number writes one value, and only four things can become of it
(`Default.numeric`): few enough plain digits are read exactly by both types; any other number is
rounded, and both types look at the same floating-point number; a number beyond the bound is
refused by both; and so is a literal that writes no number.  What holds of the readers is read off
these four cases.

Main results: `integer_agrees_with_number`, `integer_exact_iff`.
-/
import ApiOutline.Proofs.Numeral
import ApiOutline.Proofs.Rounding
import ApiOutline.Proofs.ValueEquality
import ApiOutline.Shape.Default

namespace ApiOutline

open Literal Binary64

/-- The literal writes a whole number that has few enough digits to be read as one. -/
def Literal.WritesWhole (literal : List Char) : Prop :=
  ∃ n : Numeral, Writes literal n ∧ n.IsWhole ∧ n.whole.length ≤ maxDigits

namespace Literal

variable {literal : List Char}

theorem writesWhole_iff : WritesWhole literal ↔ ∃ v, readInteger? literal = some v := by
  constructor
  · rintro ⟨n, hwrites, hwhole, hlength⟩
    exact ⟨_, readInteger?_eq_some_iff.mpr ⟨n, hwrites, hwhole, hlength, hwhole.value⟩⟩
  · rintro ⟨v, hv⟩
    obtain ⟨n, hwrites, hwhole, hlength, -⟩ := readInteger?_eq_some_iff.mp hv
    exact ⟨n, hwrites, hwhole, hlength⟩

/-- The floating-point number that is read for a numeral is what its value rounds to. -/
theorem Writes.roundsTo {n : Numeral} (h : Writes literal n) :
    ∃ x, readBinary64? literal = some x ∧ RoundsTo n.value x := by
  refine ⟨_, congrArg (Option.map Real.toBinary64) h.read?, ?_⟩
  rw [n.value_eq]
  exact roundsTo_ofDecimal _ _ _

/-- What is read for a literal that writes no number is not finite. -/
theorem isFinite_of_not_writes (h : ∀ n, ¬ Writes literal n) {x : Binary64}
    (hx : readBinary64? literal = some x) : x.isFinite = false := by
  obtain ⟨r, hr, rfl⟩ := Option.map_eq_some_iff.mp hx
  cases r with
  | nan => rfl
  | infinity negative => rfl
  | decimal negative digits exponent =>
    obtain ⟨n, hn⟩ := exists_numeral hr
    exact absurd hn (h n)

end Literal

theorem Binary64.toInt?_eq_none {x : Binary64} (h : x.isFinite = false) : x.toInt? = none := by
  cases x with
  | nan => rfl
  | infinity negative => rfl
  | finite negative m e => cases h

namespace Default

/-- What a floating-point number comes to as an integer. -/
def integerOf (literal : List Char) (x : Binary64) : Except LiteralFault Scalar :=
  x.toInt?.elim (.error (.notInteger (String.ofList literal))) fun v => .ok (.integer v)

/-- What a literal comes to as a default of the two types of numbers. -/
inductive Numeric (literal : List Char) : Prop
  /-- it writes a whole number, which both types read exactly -/
  | whole (n : Numeral) (v : Int) (writes : Writes literal n) (writesWhole : WritesWhole literal)
      (value : n.value = v) (integer : readInteger literal = .ok (.integer v))
      (number : readNumber literal = .ok (.integer v))
  /-- it writes another number, for which a floating-point number stands -/
  | rounded (n : Numeral) (x : Binary64) (writes : Writes literal n)
      (notWhole : ¬ WritesWhole literal) (rounds : RoundsTo n.value x)
      (finite : x.isFinite = true)
      (integer : readInteger literal = integerOf literal x)
      (number : readNumber literal = .ok (.float x))
  /-- it writes a number beyond all floating-point numbers -/
  | overflow (n : Numeral) (writes : Writes literal n) (notWhole : ¬ WritesWhole literal)
      (bound : overflowBound ≤ |n.value|)
      (integer : readInteger literal = .error (.notInteger (String.ofList literal)))
      (number : readNumber literal = .error (.notFinite (String.ofList literal)))
  /-- it writes no number -/
  | nothing (silent : ∀ n, ¬ Writes literal n) (integer : ∃ f, readInteger literal = .error f)
      (number : ∃ f, readNumber literal = .error f)

section Rounded

variable {literal : List Char} (hwhole : readInteger? literal = none) {x : Binary64}
  (hx : readBinary64? literal = some x)
include hwhole hx

theorem readInteger_of_rounded : readInteger literal = integerOf literal x := by
  rw [readInteger, hwhole, hx, integerOf]
  dsimp only
  cases x.toInt? <;> rfl

theorem readNumber_of_rounded : readNumber literal =
    if x.isFinite then .ok (.float x) else .error (.notFinite (String.ofList literal)) := by
  rw [readNumber, hwhole, hx]

/-- A number that is not finite is refused by both types. -/
theorem refuses_of_not_isFinite (hfinite : x.isFinite = false) :
    readInteger literal = .error (.notInteger (String.ofList literal)) ∧
      readNumber literal = .error (.notFinite (String.ofList literal)) := by
  rw [readInteger_of_rounded hwhole hx, readNumber_of_rounded hwhole hx, integerOf,
    toInt?_eq_none hfinite, hfinite]
  exact ⟨rfl, rfl⟩

end Rounded

theorem numeric (literal : List Char) : Numeric literal := by
  rcases hwhole : readInteger? literal with - | v
  · have hnot : ¬ WritesWhole literal := by
      rw [writesWhole_iff, hwhole]
      rintro ⟨v, ⟨⟩⟩
    by_cases hsilent : ∀ n, ¬ Writes literal n
    · rcases hx : readBinary64? literal with - | x
      · refine .nothing hsilent ⟨.notNumeric (String.ofList literal), ?_⟩
          ⟨.notNumeric (String.ofList literal), ?_⟩
        · rw [readInteger, hwhole, hx]
        · rw [readNumber, hwhole, hx]
      · -- there is a word for what is not finite
        obtain ⟨hinteger, hnumber⟩ :=
          refuses_of_not_isFinite hwhole hx (isFinite_of_not_writes hsilent hx)
        exact .nothing hsilent ⟨_, hinteger⟩ ⟨_, hnumber⟩
    · rw [not_forall_not] at hsilent
      obtain ⟨n, hn⟩ := hsilent
      obtain ⟨x, hx, hrounds⟩ := hn.roundsTo
      rcases hfinite : x.isFinite with - | -
      · obtain ⟨hinteger, hnumber⟩ := refuses_of_not_isFinite hwhole hx hfinite
        refine .overflow n hn hnot ?_ hinteger hnumber
        rw [← not_lt, ← hrounds.isFinite_iff, hfinite]
        exact Bool.false_ne_true
      · refine .rounded n x hn hnot hrounds hfinite (readInteger_of_rounded hwhole hx) ?_
        rw [readNumber_of_rounded hwhole hx, if_pos hfinite]
  · obtain ⟨n, hn, hplain, hlength, hvalue⟩ := readInteger?_eq_some_iff.mp hwhole
    refine .whole n v hn ⟨n, hn, hplain, hlength⟩ hvalue ?_ ?_
    · rw [readInteger, hwhole]
    · rw [readNumber, hwhole]

/-! ### Integers and numbers -/

/-- A finite number is taken as an integer if its value is one. -/
theorem integerOf_eq_ok_iff {literal : List Char} {x : Binary64} (hx : x.isFinite = true)
    {v : Scalar} : integerOf literal x = .ok v ↔ ∃ k : Int, v = .integer k ∧ x.value = k := by
  simp only [← toInt?_eq_some_iff hx]
  rw [integerOf]
  rcases x.toInt? with - | k
  · refine iff_of_false (by rintro ⟨⟩) ?_
    rintro ⟨k, -, ⟨⟩⟩
  · constructor
    · intro h
      exact ⟨k, (Except.ok.inj h).symm, rfl⟩
    · rintro ⟨_, rfl, ⟨⟩⟩
      rfl

theorem readNamed_integer (literal : String) :
    readNamed "integer" literal = readInteger literal.toList := rfl

/-- **When integers are exact.**  A literal that is read as an integer writes a number, and the
integer is that number exactly if the literal is a plain number of few enough digits or if some
floating-point number has the value.  Otherwise the number was rounded first, so that even one
that is not whole may be taken. -/
theorem integer_exact_iff {literal : String} {v : Int}
    (h : readNamed "integer" literal = .ok (.integer v)) :
    (∃ n, Writes literal.toList n) ∧ ∀ n, Writes literal.toList n →
      ((v : ℚ) = n.value ↔
        WritesWhole literal.toList ∨ ∃ x : Binary64, x.IsCanonical ∧ x.value = n.value) ∧
      (¬ WritesWhole literal.toList →
        ∃ x, RoundsTo n.value x ∧ x.isFinite = true ∧ x.value = v) := by
  rw [readNamed_integer] at h
  cases numeric literal.toList with
  | whole n k writes writesWhole value integer number =>
    obtain ⟨⟩ := integer.symm.trans h
    refine ⟨⟨n, writes⟩, fun m hm => ⟨iff_of_true ?_ (.inl writesWhole), absurd writesWhole⟩⟩
    rw [hm.value_eq writes, value]
  | rounded n x writes notWhole rounds finite integer number =>
    obtain ⟨k, hk, hx⟩ := (integerOf_eq_ok_iff finite).mp (integer.symm.trans h)
    obtain rfl := Scalar.integer.inj hk
    refine ⟨⟨n, writes⟩, fun m hm => ?_⟩
    rw [hm.value_eq writes]
    refine ⟨?_, fun _ => ⟨x, rounds, finite, hx⟩⟩
    -- rounding is exact just where some number has the value
    rw [← rounds.value_eq_iff, or_iff_right notWhole, ← hx]
    exact ⟨fun hvalue => ⟨finite, hvalue⟩, And.right⟩
  | overflow n writes notWhole bound integer number => cases integer.symm.trans h
  | nothing silent integer number =>
    obtain ⟨f, hf⟩ := integer
    cases hf.symm.trans h

/-- The numeral `10.50e1`. -/
def tenAndAHalfTimesTen : Numeral where
  sign := .none
  whole := ['1', '0']
  fraction? := some ['5', '0']
  power? := some ⟨'e', .none, ['1'], .inl rfl, by decide, List.all_eq_true.mp rfl⟩
  nonempty := by decide
  allDigits := List.all_eq_true.mp rfl

theorem integer_exact_behind_point :
    readNamed "integer" " 1_0.50e1" = .ok (.integer 105) ∧
      Writes " 1_0.50e1".toList tenAndAHalfTimesTen ∧
        ((105 : Int) : ℚ) = tenAndAHalfTimesTen.value := by
  have hread : readNamed "integer" " 1_0.50e1" = .ok (.integer 105) := by decide +kernel
  have hwrites : Writes " 1_0.50e1".toList tenAndAHalfTimesTen := prepare?_eq_text_iff.mp rfl
  have hvalue : tenAndAHalfTimesTen.value = 105 := by
    rw [Numeral.value_eq]
    show (1 : ℚ) * ((1050 : Nat) * 10 ^ ((1 : Int) - (2 : Nat))) = 105
    norm_num
  refine ⟨hread, hwrites, ((integer_exact_iff hread).2 _ hwrites).1.mpr (.inr ?_)⟩
  refine ⟨.finite false (105 * 2 ^ 46) (-46), ⟨by decide, by decide, by decide, by decide⟩, ?_⟩
  rw [hvalue]
  norm_num [Binary64.value]

/-- The test for whole numbers sees the rounded number only. -/
theorem integer_takes_rounded :
    (readNamed "integer" "0.99999999999999999999" = .ok (.integer 1) ∧
      ∃ n, Writes "0.99999999999999999999".toList n ∧ n.value = 1 - 1 / 10 ^ 20) ∧
    (readNamed "integer" "1e23" = .ok (.integer (10 ^ 23 - 8388608)) ∧
      ∃ n, Writes "1e23".toList n ∧ n.value = 10 ^ 23) := by
  refine ⟨⟨by decide +kernel, ?_⟩, by decide +kernel, ?_⟩
  · refine ⟨⟨.none, ['0'], some (List.replicate 20 '9'), none, by decide,
      List.all_eq_true.mp rfl⟩, prepare?_eq_text_iff.mp rfl, ?_⟩
    rw [Numeral.value_eq]
    show (1 : ℚ) * ((99999999999999999999 : Nat) * 10 ^ ((0 : Int) - (20 : Nat))) = 1 - 1 / 10 ^ 20
    norm_num
  · refine ⟨⟨.none, ['1'], none, some ⟨'e', .none, ['2', '3'], .inl rfl, by decide,
      List.all_eq_true.mp rfl⟩, by decide, List.all_eq_true.mp rfl⟩,
      prepare?_eq_text_iff.mp rfl, ?_⟩
    rw [Numeral.value_eq]
    show (1 : ℚ) * ((1 : Nat) * 10 ^ ((23 : Int) - (0 : Nat))) = 10 ^ 23
    norm_num

end Default

end ApiOutline
