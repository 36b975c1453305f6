/-
ApiOutline/Proofs/Rounding.lean

Correct rounding.

Design.  A rational rounds to the number nearest to it, to the even one of two that are equally
near, and to an infinity from half way between the greatest number and the next power of two on
(`RoundsTo`).  Near a positive rational the numbers stand on a grid of multiples of a power of
two, and those beside the grid lie below the leading bit of the rational; so a whole number
nearest on the grid is a number nearest at all (`nearest_of_grid`).  What is left is to round a
quotient to a whole number (`roundQuotient_half`) and to see when its significand fits an
exponent (`le_maxExponent_iff`).

Main results: `roundsTo_ofDecimal`, `RoundsTo.value_eq_iff`.
-/
import ApiOutline.Proofs.Binary64Value

namespace ApiOutline

namespace Binary64

/-! ### Rounded quotients -/

/-- A rounded quotient is off by a half at most, and by a half only if it is even. -/
theorem roundQuotient_half (num : Nat) {den : Nat} (hden : 0 < den) :
    2 * |(roundQuotient num den : ℚ) - num / den| ≤ 1 ∧
      (2 * |(roundQuotient num den : ℚ) - num / den| = 1 → Even (roundQuotient num den)) := by
  have hden' : (0 : ℚ) < den := by exact_mod_cast hden
  -- the rest of the division is a fraction of the divisor, on which the rounding depends
  generalize hrest : ((num % den : Nat) : ℚ) / den = rest
  have hlow : 0 ≤ rest := by
    rw [← hrest]
    positivity
  have hhigh : rest < 1 := by
    rw [← hrest, div_lt_one hden']
    exact_mod_cast Nat.mod_lt num hden
  have hquotient : (num : ℚ) / den = (num / den : Nat) + rest := by
    rw [← hrest, div_eq_iff hden'.ne', add_mul, div_mul_cancel₀ _ hden'.ne']
    exact_mod_cast (Nat.div_add_mod' num den).symm
  have hhalf : 2 * rest * den = (2 * (num % den) : Nat) := by
    rw [← hrest, mul_assoc, div_mul_cancel₀ _ hden'.ne']
    push_cast
    rfl
  have hdown : |((num / den : Nat) : ℚ) - num / den| = rest := by
    rw [hquotient, sub_add_cancel_left, abs_neg, abs_of_nonneg hlow]
  have hup : |((num / den + 1 : Nat) : ℚ) - num / den| = 1 - rest := by
    rw [hquotient, Nat.cast_add, Nat.cast_one, add_sub_add_left_eq_sub, abs_of_pos (by linarith)]
  rw [roundQuotient]
  rcases lt_trichotomy (2 * (num % den)) den with hlt | heq | hgt
  · rw [if_pos hlt, hdown]
    have hless : 2 * rest < 1 := by
      rw [← mul_lt_iff_lt_one_left hden', hhalf]
      exact_mod_cast hlt
    exact ⟨hless.le, fun h => absurd h hless.ne⟩
  · -- a tie
    have hone : 2 * rest = 1 := by
      rw [← mul_eq_right₀ hden'.ne', hhalf, heq]
    rw [if_neg heq.not_lt, if_neg heq.not_gt]
    split
    · rename_i heven
      rw [hdown]
      exact ⟨hone.le, fun _ => Nat.even_iff.mpr heven⟩
    · rename_i hodd
      rw [hup]
      exact ⟨by linarith, fun _ => (Nat.not_even_iff_odd.mp (Nat.even_iff.not.mpr hodd)).add_one⟩
  · rw [if_neg hgt.not_gt, if_pos hgt, hup]
    have hmore : 1 < 2 * rest := by
      rw [← lt_mul_iff_one_lt_left hden', hhalf]
      exact_mod_cast hgt
    exact ⟨by linarith, fun h => absurd h (by linarith)⟩

/-- A whole number that is off by a half at most is as near as any other, and one that is equally
near is off by a half. -/
theorem nearest_of_half {t : ℚ} {n : Int} (h : 2 * |(n : ℚ) - t| ≤ 1) (k : Int) :
    |(n : ℚ) - t| ≤ |(k : ℚ) - t| ∧
      (|(k : ℚ) - t| = |(n : ℚ) - t| → k ≠ n → 2 * |(n : ℚ) - t| = 1) := by
  by_cases hk : k = n
  · subst hk
    exact ⟨le_rfl, fun _ hne => absurd rfl hne⟩
  have hone : (1 : ℚ) ≤ |(k : ℚ) - n| := by exact_mod_cast Int.one_le_abs (sub_ne_zero.mpr hk)
  have hsum : |(k : ℚ) - n| ≤ |(k : ℚ) - t| + |(n : ℚ) - t| := by
    rw [abs_sub_comm (n : ℚ) t]
    exact abs_sub_le _ _ _
  exact ⟨by linarith, fun htie _ => by linarith⟩

/-! ### Rounding to the nearest number -/

/-- Halfway between the greatest number and the next power of two. -/
def overflowBound : ℚ := 2 ^ 1024 - 2 ^ 970

theorem overflowBound_eq : overflowBound = (2 * leadingBit - 1 / 2) * 2 ^ maxExponent := by
  have hsplit : ∀ n : Nat, n = 54 + 970 → (2 : ℚ) ^ n = 2 ^ 54 * 2 ^ 970 := by
    rintro n rfl
    exact pow_add 2 54 970
  have hmax : (2 : ℚ) ^ maxExponent = 2 ^ 970 * 2 := zpow_add_one₀ two_ne_zero 970
  rw [overflowBound, hsplit 1024 rfl, hmax]
  generalize (2 : ℚ) ^ 970 = p
  norm_num [leadingBit]
  ring

/-- The significand of a finite number. -/
def significand : Binary64 → Nat
  | finite _ m _ => m
  | _ => 0

/-- The number is what a rational rounds to: an infinity from a bound on; below it the nearest
number there is, and of two such numbers the one with the even significand. -/
structure RoundsTo (q : ℚ) (x : Binary64) : Prop where
  isFinite_iff : x.isFinite = true ↔ |q| < overflowBound
  isCanonical : x.isFinite = true → x.IsCanonical
  nearest : x.isFinite = true → ∀ y : Binary64, y.IsCanonical → |x.value - q| ≤ |y.value - q|
  even : x.isFinite = true → ∀ y : Binary64, y.IsCanonical → |y.value - q| = |x.value - q| →
    y.value ≠ x.value → Even x.significand

theorem settle_of_carried (negative : Bool) (e : Int) :
    settle negative (2 * leadingBit) e =
      if maxExponent < e + 1 then infinity negative else finite negative leadingBit (e + 1) := by
  rw [settle, if_pos rfl, if_pos rfl]

theorem settle_of_ne {m : Nat} (h : m ≠ 2 * leadingBit) (negative : Bool) (e : Int) :
    settle negative m e =
      if maxExponent < e then infinity negative else finite negative m e := by
  rw [settle, if_neg h, if_neg h]

/-- A significand that got too long needs the next exponent. -/
theorem isFinite_settle_iff (negative : Bool) (m : Nat) (e : Int) :
    (settle negative m e).isFinite = true ↔
      (if m = 2 * leadingBit then e + 1 else e) ≤ maxExponent := by
  have hiff : ∀ (m : Nat) (e : Int),
      (if maxExponent < e then infinity negative else finite negative m e).isFinite = true ↔
        e ≤ maxExponent := by
    intro m e
    split
    · rename_i h
      exact iff_of_false (by rintro ⟨⟩) h.not_ge
    · rename_i h
      exact iff_of_true rfl (not_lt.mp h)
  by_cases hm : m = 2 * leadingBit
  · rw [hm, settle_of_carried, if_pos rfl, hiff]
  · rw [settle_of_ne hm, if_neg hm, hiff]

/-- Halving a significand does not change the value. -/
theorem value_settle {negative : Bool} {m : Nat} {e : Int}
    (h : (settle negative m e).isFinite = true) :
    (settle negative m e).value = (if negative then -1 else 1) * (m * 2 ^ e) := by
  rw [isFinite_settle_iff] at h
  by_cases hm : m = 2 * leadingBit
  · rw [if_pos hm] at h
    rw [hm, settle_of_carried, if_neg h.not_gt, value, zpow_add_one₀ two_ne_zero]
    push_cast
    ring
  · rw [if_neg hm] at h
    rw [settle_of_ne hm, if_neg h.not_gt, value]

theorem even_significand_settle {m : Nat} (h : Even m) (negative : Bool) (e : Int) :
    Even (settle negative m e).significand := by
  by_cases hm : m = 2 * leadingBit
  · rw [hm, settle_of_carried]
    split
    · exact Even.zero
    · show Even leadingBit
      decide
  · rw [settle_of_ne hm]
    split
    · exact Even.zero
    · exact h

section Grid

variable {q : ℚ} {e : Int}

/-- Distances on a grid are those of whole numbers, scaled. -/
theorem abs_grid_sub (k q : ℚ) (e : Int) : |k * 2 ^ e - q| = |k - q * 2 ^ (-e)| * 2 ^ e := by
  have hpos : (0 : ℚ) < 2 ^ e := zpow_pos two_pos e
  rw [zpow_neg, ← abs_of_pos hpos, ← abs_mul, sub_mul, abs_of_pos hpos, mul_assoc,
    inv_mul_cancel₀ hpos.ne', mul_one]

/-- A number whose exponent is not below that of a grid stands on it. -/
theorem exists_value_eq_grid {negative : Bool} {m : Nat} {d : Int} (h : e ≤ d) :
    ∃ k : Int, (finite negative m d).value = k * 2 ^ e := by
  have hpow : (2 : ℚ) ^ d = 2 ^ (d - e).toNat * 2 ^ e := by
    rw [← zpow_natCast, ← zpow_add₀ two_ne_zero, Int.toNat_of_nonneg (by omega), sub_add_cancel]
  refine ⟨(if negative then -1 else 1) * (m * 2 ^ (d - e).toNat), ?_⟩
  rw [value, hpow]
  cases negative <;> push_cast <;> ring

/-- A canonical number that does not stand on a grid lies below the leading bit of it. -/
theorem value_lt_of_exponent_lt {negative : Bool} {m : Nat} {d : Int}
    (hy : (finite negative m d).IsCanonical) (h : d < e) :
    (finite negative m d).value < leadingBit * 2 ^ e := by
  have hm : (m : ℚ) < 2 * leadingBit := by exact_mod_cast hy.1
  have hd : (0 : ℚ) < 2 ^ d := zpow_pos two_pos d
  have hmag : (m : ℚ) * 2 ^ d < leadingBit * 2 ^ e := by
    calc (m : ℚ) * 2 ^ d < 2 * leadingBit * 2 ^ d := mul_lt_mul_of_pos_right hm hd
      _ = leadingBit * 2 ^ (d + 1) := by rw [zpow_add_one₀ two_ne_zero]; ring
      _ ≤ leadingBit * 2 ^ e :=
        mul_le_mul_of_nonneg_left (zpow_le_zpow_right₀ one_le_two (by omega)) (by positivity)
  rw [value]
  split
  · have hpos : (0 : ℚ) ≤ m * 2 ^ d := by positivity
    have hgrid : (0 : ℚ) < leadingBit * 2 ^ e :=
      mul_pos (by norm_num [leadingBit]) (zpow_pos two_pos e)
    linarith
  · rwa [one_mul]

/-- A whole number nearest to a rational on a grid gives a number that is nearest, if the numbers
beside the grid lie below the rational. -/
theorem nearest_of_grid {n : Nat} (hhalf : 2 * |(n : ℚ) - q * 2 ^ (-e)| ≤ 1)
    (hbeside : minExponent < e → leadingBit * 2 ^ e ≤ q) {y : Binary64} (hy : y.IsCanonical) :
    |(n : ℚ) * 2 ^ e - q| ≤ |y.value - q| ∧
      (|y.value - q| = |(n : ℚ) * 2 ^ e - q| → y.value ≠ n * 2 ^ e →
        2 * |(n : ℚ) - q * 2 ^ (-e)| = 1) := by
  rcases y with - | negative | ⟨negative, m, d⟩
  · cases hy
  · cases hy
  have hpos : (0 : ℚ) < 2 ^ e := zpow_pos two_pos e
  have hhalf' : 2 * |((n : Int) : ℚ) - q * 2 ^ (-e)| ≤ 1 := hhalf
  by_cases hd : e ≤ d
  · obtain ⟨k, hk⟩ : ∃ k : Int, (finite negative m d).value = k * 2 ^ e :=
      exists_value_eq_grid hd
    obtain ⟨hnear, htie⟩ := nearest_of_half hhalf' k
    rw [hk, abs_grid_sub, abs_grid_sub]
    refine ⟨mul_le_mul_of_nonneg_right hnear hpos.le, fun heq hne => ?_⟩
    refine htie (mul_right_cancel₀ hpos.ne' heq) fun hkn => hne ?_
    rw [hkn, Int.cast_natCast]
  · -- the grid point of the leading bit lies between the number and the rational
    have hlow := value_lt_of_exponent_lt hy (not_le.mp hd)
    have hq : leadingBit * 2 ^ e ≤ q := hbeside (hy.2.1.trans_lt (not_le.mp hd))
    have hlead : |(n : ℚ) * 2 ^ e - q| ≤ |(leadingBit : ℚ) * 2 ^ e - q| := by
      rw [abs_grid_sub, abs_grid_sub]
      exact mul_le_mul_of_nonneg_right (nearest_of_half hhalf' leadingBit).1 hpos.le
    rw [abs_of_nonpos (sub_nonpos.mpr hq)] at hlead
    rw [abs_of_neg (sub_neg.mpr (hlow.trans_le hq))]
    exact ⟨by linarith, fun heq => by linarith⟩

/-- On the grid that a rational is rounded on, its significand fits an exponent exactly if it is
below the bound. -/
theorem le_maxExponent_iff {n : Nat} (hhalf : 2 * |(n : ℚ) - q * 2 ^ (-e)| ≤ 1)
    (htie : 2 * |(n : ℚ) - q * 2 ^ (-e)| = 1 → Even n)
    (hbeside : minExponent < e → leadingBit * 2 ^ e ≤ q) (hhigh : q < 2 * leadingBit * 2 ^ e) :
    (if n = 2 * leadingBit then e + 1 else e) ≤ maxExponent ↔ q < overflowBound := by
  have hlead : (1 : ℚ) ≤ leadingBit := by norm_num [leadingBit]
  have hmax : (0 : ℚ) < 2 ^ maxExponent := zpow_pos two_pos _
  rw [overflowBound_eq]
  rcases lt_trichotomy e maxExponent with hlt | rfl | hgt
  · -- there is room for a longer significand
    refine iff_of_true (by split <;> omega) ?_
    have hstep : (2 : ℚ) * 2 ^ e ≤ 2 ^ maxExponent := by
      rw [← zpow_one_add₀ two_ne_zero]
      exact zpow_le_zpow_right₀ one_le_two (by omega)
    nlinarith
  · have hq : q = q * 2 ^ (-maxExponent) * 2 ^ maxExponent := by
      rw [mul_assoc, ← zpow_add₀ two_ne_zero, neg_add_cancel, zpow_zero, mul_one]
    rw [hq, mul_lt_mul_iff_left₀ hmax] at hhigh ⊢
    generalize q * 2 ^ (-maxExponent) = t at *
    obtain ⟨hdown, hup⟩ := abs_le.mp ((le_div_iff₀' two_pos).mpr hhalf)
    by_cases hcarried : n = 2 * leadingBit
    · rw [if_pos hcarried]
      refine iff_of_false (by omega) (not_lt.mpr ?_)
      rw [hcarried] at hup
      push_cast at hup
      linarith
    · -- the greatest significand is odd, so that a tie does not go to it
      rw [if_neg hcarried]
      refine iff_of_true le_rfl (not_le.mp fun hle => ?_)
      have hlong : (n : ℚ) < 2 * leadingBit + 1 := by linarith
      have hlong' : n < 2 * leadingBit + 1 := by exact_mod_cast hlong
      have hshort : n + 1 ≤ 2 * leadingBit := by omega
      have hshort' : (n : ℚ) + 1 ≤ 2 * leadingBit := by exact_mod_cast hshort
      have hoff : |(n : ℚ) - t| = 1 / 2 := by
        rw [abs_of_nonpos (by linarith)]
        linarith
      obtain ⟨k, hk⟩ := htie (by rw [hoff]; norm_num)
      have hodd : (n : ℚ) + 1 = 2 * leadingBit := by
        rw [abs_of_nonpos (by linarith)] at hoff
        linarith
      have hodd' : n + 1 = 2 * leadingBit := by exact_mod_cast hodd
      omega
  · refine iff_of_false (by split <;> omega) (not_lt.mpr ?_)
    have hstep : (2 : ℚ) * 2 ^ maxExponent ≤ 2 ^ e := by
      rw [← zpow_one_add₀ two_ne_zero]
      exact zpow_le_zpow_right₀ one_le_two (by omega)
    have hq : leadingBit * 2 ^ e ≤ q := hbeside (lt_trans (by decide) hgt)
    nlinarith

end Grid

section Quotient

variable {num den : Nat}

/-- What a positive quotient of naturals rounds to. -/
theorem roundsTo_ofRatio_of_ne (hnum : num ≠ 0) (hden : den ≠ 0) :
    RoundsTo (num / den) (ofRatio false num den) := by
  obtain ⟨hlow, hhigh⟩ := two_zpow_binaryScale_le hnum hden
  have hfinite : (ofRatio false num den).isFinite = true → (ofRatio false num den).IsCanonical :=
    isCanonical_ofRatio false hden
  rw [ofRatio_eq false hnum] at hfinite ⊢
  generalize he : max (binaryScale num den - 52) minExponent = e at hfinite ⊢
  obtain ⟨hhalf, htie⟩ := roundQuotient_half (scaled 2 num (-e))
    (scaled_pos Nat.two_pos (Nat.pos_of_ne_zero hden) e)
  rw [scaled_quotient] at hhalf htie
  generalize roundQuotient (scaled 2 num (-e)) (scaled 2 den e) = n at *
  generalize (num : ℚ) / den = q at *
  have hq : 0 < q := (zpow_pos two_pos _).trans_le hlow
  have hvalue : (settle false n e).isFinite = true → (settle false n e).value = n * 2 ^ e := by
    intro h
    rw [value_settle h, if_neg Bool.false_ne_true, one_mul]
  -- an exponent above the least one was taken from the scale of the quotient
  have hbeside : minExponent < e → leadingBit * 2 ^ e ≤ q := by
    intro hmin
    have hscale : binaryScale num den = 52 + e := by omega
    have hlead : (leadingBit : ℚ) = 2 ^ (52 : Int) := by norm_num [leadingBit]
    rwa [hlead, ← zpow_add₀ two_ne_zero, ← hscale]
  have hhigh' : q < 2 * leadingBit * 2 ^ e := by
    have hlead : (2 * leadingBit : ℚ) = 2 ^ (53 : Int) := by norm_num [leadingBit]
    rw [hlead, ← zpow_add₀ two_ne_zero]
    exact hhigh.trans_le (zpow_le_zpow_right₀ one_le_two (by omega))
  refine ⟨?_, hfinite, ?_, ?_⟩
  · rw [isFinite_settle_iff, abs_of_pos hq]
    exact le_maxExponent_iff hhalf htie hbeside hhigh'
  · intro h y hy
    rw [hvalue h]
    exact (nearest_of_grid hhalf hbeside hy).1
  · intro h y hy
    rw [hvalue h]
    intro heq hne
    have heven : Even n := htie ((nearest_of_grid hhalf hbeside hy).2 heq hne)
    exact even_significand_settle heven _ _

end Quotient

/-! ### Zero, infinity and the sign -/

theorem value_zero (negative : Bool) : (zero negative).value = 0 := by
  rw [zero, value, Nat.cast_zero, zero_mul, mul_zero]

theorem isCanonical_zero (negative : Bool) : (zero negative).IsCanonical :=
  ⟨by decide, by decide, by decide, fun _ => rfl⟩

theorem abs_signed (negative : Bool) {q : ℚ} (hq : 0 ≤ q) :
    |(if negative then -1 else 1) * q| = q := by
  rw [abs_mul, abs_of_nonneg hq]
  cases negative <;> simp

theorem abs_value (negative : Bool) (m : Nat) (e : Int) :
    |(finite negative m e).value| = m * 2 ^ e :=
  abs_signed negative (mul_nonneg (Nat.cast_nonneg m) (zpow_pos two_pos e).le)

/-- No number but zero lies closer to zero than the least power of two. -/
theorem le_abs_value {y : Binary64} (hy : y.IsCanonical) (hne : y.value ≠ 0) :
    2 ^ minExponent ≤ |y.value| := by
  rcases y with - | negative | ⟨negative, m, d⟩
  · cases hy
  · cases hy
  have hm : (1 : ℚ) ≤ m := by
    rw [Nat.one_le_cast, Nat.one_le_iff_ne_zero]
    rintro rfl
    exact hne (by simp [value])
  rw [abs_value]
  calc (2 : ℚ) ^ minExponent ≤ 2 ^ d := zpow_le_zpow_right₀ one_le_two hy.2.1
    _ ≤ m * 2 ^ d := le_mul_of_one_le_left (zpow_pos two_pos d).le hm

/-- What is closer to zero than half the least power of two rounds to zero. -/
theorem roundsTo_zero {q : ℚ} (hq : 2 * |q| < 2 ^ minExponent) (negative : Bool) :
    RoundsTo q (zero negative) where
  isFinite_iff := by
    refine iff_of_true rfl ?_
    have hmin : (2 : ℚ) ^ minExponent ≤ 2 ^ maxExponent :=
      zpow_le_zpow_right₀ one_le_two (by decide)
    have hlead : (1 : ℚ) ≤ leadingBit := by norm_num [leadingBit]
    have hpos : 0 ≤ |q| := abs_nonneg q
    rw [overflowBound_eq]
    nlinarith
  isCanonical := fun _ => isCanonical_zero negative
  nearest := by
    intro _ y hy
    rw [value_zero, zero_sub, abs_neg]
    by_cases hne : y.value = 0
    · rw [hne, zero_sub, abs_neg]
    · have hleast := le_abs_value hy hne
      have hsub := abs_sub_abs_le_abs_sub y.value q
      linarith
  even := fun _ _ _ _ _ => Even.zero

/-- What is not below the bound rounds to an infinity. -/
theorem roundsTo_infinity {q : ℚ} (hq : overflowBound ≤ |q|) (negative : Bool) :
    RoundsTo q (infinity negative) where
  isFinite_iff := iff_of_false (by rintro ⟨⟩) hq.not_gt
  isCanonical := by rintro ⟨⟩
  nearest := by rintro ⟨⟩
  even := by rintro ⟨⟩

@[simp] theorem isFinite_neg (x : Binary64) : x.neg.isFinite = x.isFinite := by
  cases x <;> rfl

@[simp] theorem significand_neg (x : Binary64) : x.neg.significand = x.significand := by
  cases x <;> rfl

@[simp] theorem isCanonical_neg (x : Binary64) : x.neg.IsCanonical ↔ x.IsCanonical := by
  cases x <;> rfl

@[simp] theorem value_neg (x : Binary64) : x.neg.value = -x.value := by
  rcases x with - | negative | ⟨negative, m, e⟩
  · exact neg_zero.symm
  · exact neg_zero.symm
  · rw [neg, value, value]
    cases negative <;> simp

/-- Rounding does not look at the sign. -/
theorem RoundsTo.neg {q : ℚ} {x : Binary64} (h : RoundsTo q x) : RoundsTo (-q) x.neg where
  isFinite_iff := by rw [isFinite_neg, abs_neg, h.isFinite_iff]
  isCanonical := by
    rw [isFinite_neg, isCanonical_neg]
    exact h.isCanonical
  nearest := by
    intro hx y hy
    rw [isFinite_neg] at hx
    have hnear := h.nearest hx y.neg ((isCanonical_neg y).mpr hy)
    rw [value_neg] at hnear ⊢
    rwa [neg_sub_neg, abs_sub_comm, ← abs_neg (y.value - -q), neg_sub', neg_neg]
  even := by
    intro hx y hy htie hne
    rw [isFinite_neg] at hx
    rw [value_neg] at htie hne
    rw [significand_neg]
    refine h.even hx y.neg ((isCanonical_neg y).mpr hy) ?_ ?_
    · rw [value_neg, ← abs_neg, neg_sub', neg_neg, htie, neg_sub_neg, abs_sub_comm]
    · rw [value_neg]
      exact fun heq => hne (neg_eq_iff_eq_neg.mp heq)

/-! ### Quotients and decimals -/

theorem ofRatio_true (num den : Nat) : ofRatio true num den = (ofRatio false num den).neg := by
  by_cases hnum : num = 0
  · rw [ofRatio, ofRatio, if_pos hnum, if_pos hnum]
    rfl
  · rw [ofRatio_eq true hnum, ofRatio_eq false hnum]
    generalize roundQuotient _ _ = m
    generalize max (binaryScale num den - 52) minExponent = e
    by_cases hm : m = 2 * leadingBit
    · rw [hm, settle_of_carried, settle_of_carried]
      split <;> rfl
    · rw [settle_of_ne hm, settle_of_ne hm]
      split <;> rfl

/-- **Rounding a quotient.** -/
theorem roundsTo_ofRatio (negative : Bool) (num : Nat) {den : Nat} (hden : den ≠ 0) :
    RoundsTo ((if negative then -1 else 1) * (num / den)) (ofRatio negative num den) := by
  have hpositive : RoundsTo (num / den) (ofRatio false num den) := by
    by_cases hnum : num = 0
    · rw [hnum, Nat.cast_zero, zero_div]
      exact roundsTo_zero (by rw [abs_zero, mul_zero]; exact zpow_pos two_pos _) false
    · exact roundsTo_ofRatio_of_ne hnum hden
  cases negative with
  | false =>
    rw [if_neg Bool.false_ne_true, one_mul]
    exact hpositive
  | true =>
    rw [if_pos rfl, neg_one_mul, ofRatio_true]
    exact hpositive.neg

theorem two_zpow_le_ten_zpow {e : Int} (h : 0 ≤ e) : (2 : ℚ) ^ (3 * e) ≤ 10 ^ e := by
  rw [zpow_mul]
  exact zpow_le_zpow_left₀ h (by norm_num) (by norm_num)

theorem ten_zpow_le_two_zpow {e : Int} (h : e ≤ 0) : (10 : ℚ) ^ e ≤ 2 ^ (3 * e) := by
  have hneg := two_zpow_le_ten_zpow (neg_nonneg.mpr h)
  rw [mul_neg, zpow_neg, zpow_neg] at hneg
  exact (inv_le_inv₀ (zpow_pos two_pos _) (zpow_pos (by norm_num) e)).mp hneg

theorem overflowBound_le : overflowBound ≤ 2 ^ (1024 : Int) := by
  rw [overflowBound, zpow_ofNat]
  exact sub_le_self _ (by positivity)

/-- **Rounding a decimal.**  Where a power of ten is spared, no number comes near. -/
theorem roundsTo_ofDecimal (negative : Bool) (digits : Nat) (exponent : Int) :
    RoundsTo ((if negative then -1 else 1) * (digits * 10 ^ exponent))
      (ofDecimal negative digits exponent) := by
  have hten : (0 : ℚ) < 10 ^ exponent := zpow_pos (by norm_num) exponent
  have habs : |(if negative then (-1 : ℚ) else 1) * (digits * 10 ^ exponent)| =
      digits * 10 ^ exponent :=
    abs_signed negative (mul_nonneg (Nat.cast_nonneg digits) hten.le)
  rw [ofDecimal]
  by_cases hzero : digits = 0
  · rw [if_pos hzero, hzero, Nat.cast_zero, zero_mul, mul_zero]
    exact roundsTo_zero (by rw [abs_zero, mul_zero]; exact zpow_pos two_pos _) negative
  rw [if_neg hzero]
  by_cases hlarge : 400 < exponent
  · rw [if_pos hlarge]
    refine roundsTo_infinity ?_ negative
    rw [habs]
    have hone : (1 : ℚ) ≤ digits := by exact_mod_cast Nat.pos_of_ne_zero hzero
    calc overflowBound ≤ 2 ^ (1024 : Int) := overflowBound_le
      _ ≤ 2 ^ (3 * exponent) := zpow_le_zpow_right₀ one_le_two (by omega)
      _ ≤ 10 ^ exponent := two_zpow_le_ten_zpow (by omega)
      _ ≤ digits * 10 ^ exponent := le_mul_of_one_le_left hten.le hone
  rw [if_neg hlarge]
  by_cases hsmall : (digits.log2 : Int) + 1100 < -3 * exponent
  · rw [if_pos hsmall]
    refine roundsTo_zero ?_ negative
    rw [habs]
    have hlog : (digits : ℚ) < 2 ^ (digits.log2 + 1 : Int) := by
      rw [← Nat.cast_succ, zpow_natCast]
      exact_mod_cast Nat.lt_log2_self
    calc 2 * ((digits : ℚ) * 10 ^ exponent)
        < 2 * (2 ^ (digits.log2 + 1 : Int) * 10 ^ exponent) :=
          mul_lt_mul_of_pos_left (mul_lt_mul_of_pos_right hlog hten) two_pos
      _ ≤ 2 * (2 ^ (digits.log2 + 1 : Int) * 2 ^ (3 * exponent)) := by
          have hpow := ten_zpow_le_two_zpow (e := exponent) (by omega)
          gcongr
      _ = 2 ^ (1 + (digits.log2 + 1 + 3 * exponent)) := by
          rw [← zpow_add₀ two_ne_zero, zpow_one_add₀ two_ne_zero]
      _ ≤ 2 ^ minExponent := by
          refine zpow_le_zpow_right₀ one_le_two ?_
          rw [minExponent]
          omega
  rw [if_neg hsmall]
  have hquotient := scaled_div_scaled 10 digits 1 exponent
  rw [Nat.cast_one, div_one, Nat.cast_ofNat] at hquotient
  rw [← hquotient]
  exact roundsTo_ofRatio negative _ (scaled_pos (by decide) Nat.one_pos _).ne'

/-! ### Exactness -/

theorem abs_value_lt_overflowBound {x : Binary64} (h : x.IsCanonical) :
    |x.value| < overflowBound := by
  rcases x with - | negative | ⟨negative, m, e⟩
  · cases h
  · cases h
  have hlong : (m : ℚ) + 1 ≤ 2 * leadingBit := by exact_mod_cast h.1
  have hm : (m : ℚ) < 2 * leadingBit - 1 / 2 := by linarith
  have hpow : (2 : ℚ) ^ e ≤ 2 ^ maxExponent := zpow_le_zpow_right₀ one_le_two h.2.2.1
  rw [abs_value, overflowBound_eq]
  calc (m : ℚ) * 2 ^ e ≤ m * 2 ^ maxExponent := mul_le_mul_of_nonneg_left hpow (Nat.cast_nonneg m)
    _ < (2 * leadingBit - 1 / 2) * 2 ^ maxExponent :=
      mul_lt_mul_of_pos_right hm (zpow_pos two_pos _)

/-- Rounding is exact just where it can be: if a number has the value. -/
theorem RoundsTo.value_eq_iff {q : ℚ} {x : Binary64} (h : RoundsTo q x) :
    x.isFinite = true ∧ x.value = q ↔ ∃ y : Binary64, y.IsCanonical ∧ y.value = q := by
  constructor
  · rintro ⟨hx, hq⟩
    exact ⟨x, h.isCanonical hx, hq⟩
  · rintro ⟨y, hy, rfl⟩
    have hx : x.isFinite = true := h.isFinite_iff.mpr (abs_value_lt_overflowBound hy)
    have hnear := h.nearest hx y hy
    rw [sub_self, abs_zero] at hnear
    exact ⟨hx, sub_eq_zero.mp (abs_nonpos_iff.mp hnear)⟩

end Binary64

end ApiOutline
