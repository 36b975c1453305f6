/-
ApiOutline/Proofs/Binary64Value.lean

The values of floating-point numbers.

Design.  A finite number has a rational value (`value`), and numeric equality is said of
significands and exponents.  The two agree on numbers in canonical form, where the value and the
sign give the number: of two forms of one value, the one with the lower exponent has a
significand that is even more than twice too long (`eq_of_value_eq`).  Zeros alone have two forms.

Rounding gives canonical numbers.  It first finds the power of two below a quotient
(`two_zpow_binaryScale_le`), and from there on only the bounds of the significand matter, whichever
way it is rounded (`isCanonical_settle`).

Main results: `alike_iff_value`, `toInt?_eq_some_iff`, `isCanonical_readBinary64?`.
-/
import Mathlib
import ApiOutline.Number.Literal

namespace ApiOutline

namespace Binary64

/-! ### Values -/

/-- The value of a finite number.  What is not finite has none and counts as zero. -/
def value : Binary64 → ℚ
  | finite negative m e => (if negative then -1 else 1) * (m * 2 ^ e)
  | _ => 0

/-- The number is finite, and its significand and exponent are those of its value. -/
def IsCanonical : Binary64 → Prop
  | finite _ m e =>
    m < 2 * leadingBit ∧ minExponent ≤ e ∧ e ≤ maxExponent ∧ (m < leadingBit → e = minExponent)
  | _ => False

theorem IsCanonical.isFinite {x : Binary64} (h : x.IsCanonical) : x.isFinite = true := by
  cases x with
  | nan => cases h
  | infinity negative => cases h
  | finite negative m e => rfl

/-- A power is the quotient of two of them without negative exponents, one of which is one. -/
theorem zpow_eq_div (b : ℚ) (e : Int) : b ^ e = b ^ e.toNat / b ^ (-e).toNat := by
  rcases Int.le_total 0 e with h | h
  · have hneg : (-e).toNat = 0 := Int.toNat_eq_zero.mpr (by omega)
    rw [hneg, pow_zero, div_one, ← zpow_natCast, Int.toNat_of_nonneg h]
  · have hpos : e.toNat = 0 := Int.toNat_eq_zero.mpr h
    rw [hpos, pow_zero, one_div, ← zpow_natCast, ← zpow_neg, Int.toNat_of_nonneg (by omega),
      neg_neg]

/-- Numbers that share out a power have its quotient. -/
theorem scaled_div_scaled (base n d : Nat) (e : Int) :
    (scaled base n e : ℚ) / scaled base d (-e) = n / d * base ^ e := by
  have hscaled : ∀ (n : Nat) (e : Int), (scaled base n e : ℚ) = n * base ^ e.toNat := by
    intro n e
    rw [scaled]
    push_cast [Nat.pow_eq]
    rfl
  rw [hscaled, hscaled, zpow_eq_div, mul_div_mul_comm]

/-- The quotient that is rounded to a significand. -/
theorem scaled_quotient (num den : Nat) (e : Int) :
    (scaled 2 num (-e) : ℚ) / scaled 2 den e = num / den * 2 ^ (-e) := by
  have h := scaled_div_scaled 2 num den (-e)
  rwa [neg_neg, Nat.cast_ofNat] at h

/-! ### Whole numbers -/

/-- A quotient of naturals is a whole number exactly if the division leaves nothing. -/
theorem div_eq_intCast_iff {a b : Nat} (hb : 0 < b) {n : Int} :
    (a : ℚ) / b = n ↔ a % b = 0 ∧ ((a / b : Nat) : Int) = n := by
  have hb' : (b : ℚ) ≠ 0 := by exact_mod_cast hb.ne'
  constructor
  · intro h
    have hmul : (a : Int) = n * b := by
      rw [div_eq_iff hb'] at h
      exact_mod_cast h
    have hdvd : (b : Int) ∣ a := ⟨n, by rw [hmul, mul_comm]⟩
    refine ⟨Nat.mod_eq_zero_of_dvd (Int.natCast_dvd_natCast.mp hdvd), ?_⟩
    rw [Int.natCast_ediv, hmul, Int.mul_ediv_cancel n (by exact_mod_cast hb.ne')]
  · rintro ⟨hmod, rfl⟩
    obtain ⟨k, rfl⟩ := Nat.dvd_of_mod_eq_zero hmod
    rw [Nat.mul_div_cancel_left k hb]
    push_cast
    field_simp

/-- A number is the whole number that its value is. -/
theorem toInt?_eq_some_iff {x : Binary64} (hx : x.isFinite = true) {n : Int} :
    x.toInt? = some n ↔ x.value = n := by
  cases x with
  | nan => cases hx
  | infinity negative => cases hx
  | finite negative m e =>
    have hpos : 0 < scaled 2 1 (-e) := scaled_pos Nat.two_pos Nat.one_pos (-e)
    have hvalue : ((m : ℚ) * 2 ^ e) = (scaled 2 m e : ℚ) / scaled 2 1 (-e) := by
      rw [scaled_div_scaled 2, Nat.cast_one, div_one, Nat.cast_ofNat]
    have hsign : value (finite negative m e) = n ↔
        (scaled 2 m e : ℚ) / scaled 2 1 (-e) = ((if negative then -n else n : Int) : ℚ) := by
      rw [value, hvalue]
      cases negative
      · simp
      · simp [neg_eq_iff_eq_neg]
    rw [hsign, div_eq_intCast_iff hpos, toInt?]
    split
    · rename_i hmod
      cases negative
      · simp [hmod]
      · simp [hmod, neg_eq_iff_eq_neg]
    · rename_i hmod
      simp [hmod]

/-! ### Canonical numbers are given by their values -/

section Canonical

variable {m n : Nat} {d e : Int}

/-- Of two canonical forms of one value, none has the greater exponent. -/
theorem exponent_le (hm : m < 2 * leadingBit) (hd : minExponent ≤ d)
    (hn : n < leadingBit → e = minExponent) (h : (m : ℚ) * 2 ^ d = n * 2 ^ e) : e ≤ d := by
  by_contra hlt
  have hlong : leadingBit ≤ n := by
    by_contra hshort
    exact hlt (hn (Nat.lt_of_not_le hshort) ▸ hd)
  -- the significand with the lower exponent is at least twice as long
  have hm' : m = n * 2 ^ (e - d).toNat := by
    have hpow : (2 : ℚ) ^ e = 2 ^ d * 2 ^ (e - d).toNat := by
      rw [← zpow_natCast, ← zpow_add₀ two_ne_zero, Int.toNat_of_nonneg (by omega)]
      congr 1
      omega
    have hd' : (2 : ℚ) ^ d ≠ 0 := zpow_ne_zero d two_ne_zero
    have hcast : (m : ℚ) = n * 2 ^ (e - d).toNat := by
      apply mul_right_cancel₀ hd'
      rw [h, hpow]
      ring
    exact_mod_cast hcast
  have htwo : 2 ≤ 2 ^ (e - d).toNat :=
    Nat.le_self_pow (Int.toNat_eq_zero.not.mpr (by omega)) 2
  have hle : leadingBit * 2 ≤ n * 2 ^ (e - d).toNat := Nat.mul_le_mul hlong htwo
  omega

theorem eq_of_value_eq (hx : (finite false m d).IsCanonical) (hy : (finite false n e).IsCanonical)
    (h : (m : ℚ) * 2 ^ d = n * 2 ^ e) : m = n ∧ d = e := by
  obtain ⟨hm, hd, -, hmshort⟩ := hx
  obtain ⟨hn, he, -, hnshort⟩ := hy
  obtain rfl : d = e := le_antisymm (exponent_le hn he hmshort h.symm) (exponent_le hm hd hnshort h)
  have hcast : (m : ℚ) = n := mul_right_cancel₀ (zpow_ne_zero d two_ne_zero) h
  exact ⟨by exact_mod_cast hcast, rfl⟩

end Canonical

/-- **Numeric equality.**  Canonical numbers are equal exactly if their values are. -/
theorem alike_iff_value {x y : Binary64} (hx : x.IsCanonical) (hy : y.IsCanonical) :
    x.alike y = true ↔ x.value = y.value := by
  rcases x with - | negative | ⟨s, m, d⟩
  · cases hx
  · cases hx
  rcases y with - | negative | ⟨t, n, e⟩
  · cases hy
  · cases hy
  have hd : (0 : ℚ) < 2 ^ d := zpow_pos two_pos d
  have he : (0 : ℚ) < 2 ^ e := zpow_pos two_pos e
  have halike : (finite s m d).alike (finite t n e) = true ↔
      m = 0 ∧ n = 0 ∨ s = t ∧ m = n ∧ d = e := by
    cases m <;> cases n <;> simp [alike]
  rw [halike, value, value]
  constructor
  · rintro (⟨rfl, rfl⟩ | ⟨rfl, rfl, rfl⟩)
    · simp
    · rfl
  · intro h
    by_cases hst : s = t
    · subst hst
      have hsign : (if s then (-1 : ℚ) else 1) ≠ 0 := by split <;> norm_num
      obtain ⟨hm, hexp⟩ := eq_of_value_eq hx hy (mul_left_cancel₀ hsign h)
      exact .inr ⟨rfl, hm, hexp⟩
    · -- numbers with different signs are equal only if both are zero
      have hsum : (m : ℚ) * 2 ^ d + n * 2 ^ e = 0 := by
        cases s <;> cases t <;> simp_all; linarith
      have hm0 : (0 : ℚ) ≤ m * 2 ^ d := by positivity
      have hn0 : (0 : ℚ) ≤ n * 2 ^ e := by positivity
      have hm : (m : ℚ) * 2 ^ d = 0 := by linarith
      have hn : (n : ℚ) * 2 ^ e = 0 := by linarith
      refine .inl ⟨?_, ?_⟩
      · exact_mod_cast (mul_eq_zero.mp hm).resolve_right hd.ne'
      · exact_mod_cast (mul_eq_zero.mp hn).resolve_right he.ne'

/-! ### Rounding -/

theorem roundQuotient_bounds (num den : Nat) :
    num / den ≤ roundQuotient num den ∧ roundQuotient num den ≤ num / den + 1 := by
  rw [roundQuotient]
  split
  · omega
  · split
    · omega
    · split <;> omega

/-- The exponent of the greatest power of two that is not above a quotient. -/
def binaryScale (num den : Nat) : Int :=
  let near : Int := (num.log2 : Int) - den.log2
  if scaled 2 num (-near) < scaled 2 den near then near - 1 else near

/-- A rounded significand with its exponent; one that got too long is halved. -/
def settle (negative : Bool) (significand : Nat) (exponent : Int) : Binary64 :=
  let carried := significand = 2 * leadingBit
  let significand := if carried then leadingBit else significand
  let exponent := if carried then exponent + 1 else exponent
  if maxExponent < exponent then infinity negative else finite negative significand exponent

theorem ofRatio_eq (negative : Bool) {num : Nat} (hnum : num ≠ 0) (den : Nat) :
    let exponent := max (binaryScale num den - 52) minExponent
    ofRatio negative num den = settle negative
      (roundQuotient (scaled 2 num (-exponent)) (scaled 2 den exponent)) exponent :=
  if_neg hnum

theorem isCanonical_settle {negative : Bool} {m : Nat} {e : Int} (hm : m ≤ 2 * leadingBit)
    (he : minExponent ≤ e) (hshort : m < leadingBit → e = minExponent)
    (hfinite : (settle negative m e).isFinite = true) : (settle negative m e).IsCanonical := by
  have hsettle : settle negative m e =
      if maxExponent < (if m = 2 * leadingBit then e + 1 else e) then infinity negative
      else finite negative (if m = 2 * leadingBit then leadingBit else m)
        (if m = 2 * leadingBit then e + 1 else e) := rfl
  rw [hsettle] at hfinite ⊢
  by_cases hmax : maxExponent < (if m = 2 * leadingBit then e + 1 else e)
  · rw [if_pos hmax] at hfinite
    cases hfinite
  rw [if_neg hmax]
  by_cases hcarried : m = 2 * leadingBit
  · rw [if_pos hcarried] at hmax
    rw [if_pos hcarried, if_pos hcarried]
    exact ⟨by decide, by omega, by omega, fun h => absurd h (Nat.lt_irrefl _)⟩
  · rw [if_neg hcarried] at hmax
    rw [if_neg hcarried, if_neg hcarried]
    exact ⟨by omega, he, by omega, hshort⟩

section Quotient

variable {num den : Nat}

/-- Comparing two numbers that share out a power of two is comparing their quotient with it. -/
theorem scaled_lt_scaled_iff (num : Nat) (hden : 0 < den) (e : Int) :
    scaled 2 num (-e) < scaled 2 den e ↔ (num : ℚ) / den < 2 ^ e := by
  have hpos : (0 : ℚ) < scaled 2 den e := by exact_mod_cast scaled_pos Nat.two_pos hden e
  have hpow : (0 : ℚ) < 2 ^ e := zpow_pos two_pos e
  have hdiv := scaled_quotient num den e
  rw [zpow_neg, ← div_eq_mul_inv] at hdiv
  rw [← Nat.cast_lt (α := ℚ), ← div_lt_one hpos, hdiv, div_lt_one hpow]

theorem two_zpow_binaryScale_le (hnum : num ≠ 0) (hden : den ≠ 0) :
    (2 : ℚ) ^ binaryScale num den ≤ num / den ∧
      (num : ℚ) / den < 2 ^ (binaryScale num den + 1) := by
  have hnumLow : (2 : ℚ) ^ num.log2 ≤ num := by exact_mod_cast Nat.log2_self_le hnum
  have hnumHigh : (num : ℚ) < 2 ^ (num.log2 + 1) := by exact_mod_cast Nat.lt_log2_self
  have hdenLow : (2 : ℚ) ^ den.log2 ≤ den := by exact_mod_cast Nat.log2_self_le hden
  have hdenHigh : (den : ℚ) < 2 ^ (den.log2 + 1) := by exact_mod_cast Nat.lt_log2_self
  have hden' : (0 : ℚ) < den := by exact_mod_cast Nat.pos_of_ne_zero hden
  have hnear := scaled_lt_scaled_iff num (Nat.pos_of_ne_zero hden) ((num.log2 : Int) - den.log2)
  have hpow : ∀ a b : Nat, (2 : ℚ) ^ ((a : Int) - b) = 2 ^ a / 2 ^ b := fun a b => by
    rw [zpow_sub₀ two_ne_zero, zpow_natCast, zpow_natCast]
  -- the logarithms give the power of two up to a factor of two on either side
  have hlow : (2 : ℚ) ^ ((num.log2 : Int) - den.log2 - 1) ≤ num / den := by
    have hexponent : (num.log2 : Int) - den.log2 - 1 = num.log2 - (den.log2 + 1 : Nat) := by omega
    rw [hexponent, hpow]
    exact div_le_div₀ (by positivity) hnumLow hden' hdenHigh.le
  have hhigh : (num : ℚ) / den < 2 ^ ((num.log2 : Int) - den.log2 + 1) := by
    have hexponent : (num.log2 : Int) - den.log2 + 1 = (num.log2 + 1 : Nat) - den.log2 := by omega
    rw [hexponent, hpow]
    exact div_lt_div₀ hnumHigh hdenLow (by positivity) (by positivity)
  rw [binaryScale]
  split
  · rename_i hlt
    rw [sub_add_cancel]
    exact ⟨hlow, hnear.mp hlt⟩
  · rename_i hle
    exact ⟨not_lt.mp fun h => hle (hnear.mpr h), hhigh⟩

/-- A bound above a quotient holds of the division that shares out a power of two. -/
theorem scaled_div_lt (hden : 0 < den) {p e : Int} {k : Nat} (h : (num : ℚ) / den < 2 ^ p)
    (hk : (2 : ℚ) ^ p * 2 ^ (-e) ≤ k) : scaled 2 num (-e) / scaled 2 den e < k := by
  have hpos : 0 < scaled 2 den e := scaled_pos Nat.two_pos hden e
  have hpos' : (0 : ℚ) < scaled 2 den e := by exact_mod_cast hpos
  have hlt : (scaled 2 num (-e) : ℚ) / scaled 2 den e < k := by
    rw [scaled_quotient]
    exact (mul_lt_mul_of_pos_right h (zpow_pos two_pos _)).trans_le hk
  rw [Nat.div_lt_iff_lt_mul hpos]
  rw [div_lt_iff₀ hpos'] at hlt
  exact_mod_cast hlt

/-- So does a bound below it. -/
theorem le_scaled_div (hden : 0 < den) {p e : Int} {k : Nat} (h : (2 : ℚ) ^ p ≤ num / den)
    (hk : (k : ℚ) ≤ 2 ^ p * 2 ^ (-e)) : k ≤ scaled 2 num (-e) / scaled 2 den e := by
  have hpos : 0 < scaled 2 den e := scaled_pos Nat.two_pos hden e
  have hpos' : (0 : ℚ) < scaled 2 den e := by exact_mod_cast hpos
  have hle : (k : ℚ) ≤ (scaled 2 num (-e) : ℚ) / scaled 2 den e := by
    rw [scaled_quotient]
    exact hk.trans (mul_le_mul_of_nonneg_right h (zpow_pos two_pos _).le)
  rw [Nat.le_div_iff_mul_le hpos]
  rw [le_div_iff₀ hpos'] at hle
  exact_mod_cast hle

/-- What a quotient rounds to is canonical, if it is finite. -/
theorem isCanonical_ofRatio (negative : Bool) (hden : den ≠ 0)
    (hfinite : (ofRatio negative num den).isFinite = true) :
    (ofRatio negative num den).IsCanonical := by
  by_cases hnum : num = 0
  · rw [ofRatio, if_pos hnum]
    exact ⟨by decide, by decide, by decide, fun _ => rfl⟩
  obtain ⟨hlow, hhigh⟩ := two_zpow_binaryScale_le hnum hden
  have hden' : 0 < den := Nat.pos_of_ne_zero hden
  rw [ofRatio_eq negative hnum] at hfinite ⊢
  generalize he : max (binaryScale num den - 52) minExponent = e at hfinite ⊢
  obtain ⟨hroundLow, hroundHigh⟩ := roundQuotient_bounds (scaled 2 num (-e)) (scaled 2 den e)
  refine isCanonical_settle ?_ (by omega) (fun hshort => ?_) hfinite
  · -- the exponent leaves 53 bits for what stands in front of the point
    have hbits : (2 : ℚ) ^ (binaryScale num den + 1) * 2 ^ (-e) ≤ (2 * leadingBit : Nat) := by
      have hcast : ((2 * leadingBit : Nat) : ℚ) = 2 ^ (53 : Int) := by norm_num [leadingBit]
      rw [hcast, ← zpow_add₀ two_ne_zero]
      exact zpow_le_zpow_right₀ one_le_two (by omega)
    have hquotient := scaled_div_lt hden' hhigh hbits
    omega
  · -- a short significand has the least exponent: any greater one leaves 52 bits at least
    by_contra hne
    have hexact : binaryScale num den - 52 = e := by omega
    have hbits : (leadingBit : ℚ) ≤ 2 ^ binaryScale num den * 2 ^ (-e) := by
      have hcast : (leadingBit : ℚ) = 2 ^ (52 : Int) := by norm_num [leadingBit]
      rw [hcast, ← zpow_add₀ two_ne_zero]
      exact zpow_le_zpow_right₀ one_le_two (by omega)
    have hquotient := le_scaled_div hden' hlow hbits
    omega

end Quotient

/-- What a decimal rounds to is canonical, if it is finite. -/
theorem isCanonical_ofDecimal (negative : Bool) (digits : Nat) (exponent : Int)
    (hfinite : (ofDecimal negative digits exponent).isFinite = true) :
    (ofDecimal negative digits exponent).IsCanonical := by
  have hzero : (zero negative).IsCanonical := ⟨by decide, by decide, by decide, fun _ => rfl⟩
  rw [ofDecimal] at hfinite ⊢
  by_cases hdigits : digits = 0
  · rwa [if_pos hdigits]
  rw [if_neg hdigits] at hfinite ⊢
  by_cases hlarge : 400 < exponent
  · rw [if_pos hlarge] at hfinite
    cases hfinite
  rw [if_neg hlarge] at hfinite ⊢
  by_cases hsmall : (digits.log2 : Int) + 1100 < -3 * exponent
  · rwa [if_pos hsmall]
  rw [if_neg hsmall] at hfinite ⊢
  have hden : 0 < scaled 10 1 (-exponent) := scaled_pos (by decide) Nat.one_pos _
  exact isCanonical_ofRatio negative hden.ne' hfinite

end Binary64

/-- A number that is written down is canonical, if it is finite. -/
theorem Literal.isCanonical_readBinary64? {cs : List Char} {x : Binary64}
    (h : readBinary64? cs = some x) (hfinite : x.isFinite = true) : x.IsCanonical := by
  obtain ⟨r, -, rfl⟩ := Option.map_eq_some_iff.mp h
  cases r with
  | nan => cases hfinite
  | infinity negative => cases hfinite
  | decimal negative digits exponent =>
    exact Binary64.isCanonical_ofDecimal negative digits exponent hfinite

end ApiOutline
