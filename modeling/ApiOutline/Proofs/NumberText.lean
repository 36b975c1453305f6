/-
ApiOutline/Proofs/NumberText.lean

The text of numbers.

Design.  The digits of a positive number have no zero in front (`toDigits_eq_cons`).  A
decimal is laid out from its digits, with zeros and a point put between them or with a power
of ten behind; each of the four forms is one of the grammar as long as the decimal is not
zero (`Decimal.isNumber_layout`).  The decimal that identifies a positive number is not: zero
does not round to it (`Decimal.digits_shortest_pos`).

Main results: `isNumber_toString`, `Binary64.isNumber_text`.
-/
import ApiOutline.Json.Printer
import ApiOutline.Proofs.JsonText

namespace ApiOutline

open Json

/-! ### Whole numbers -/

theorem isDigit_toDigits (n : Nat) : ∀ c ∈ Nat.toDigits 10 n, c.isDigit = true :=
  fun _ hc => Nat.isDigit_of_mem_toDigits (by decide) (by decide) hc

/-- The digits of a positive number begin with one that is not zero. -/
theorem toDigits_eq_cons {n : Nat} (h : 0 < n) :
    ∃ d ds, Nat.toDigits 10 n = d :: ds ∧ d ≠ '0' := by
  induction n using Nat.strongRecOn with
  | ind n ih =>
    by_cases hn : n < 10
    · have hdigit : ∀ m < 10, 0 < m → Nat.digitChar m ≠ '0' := by decide
      exact ⟨_, [], Nat.toDigits_of_lt_base hn, hdigit n hn h⟩
    · obtain ⟨d, ds, hds, hd⟩ := ih (n / 10) (by omega) (by omega)
      rw [Nat.toDigits_of_base_le (by decide) (by omega), hds]
      exact ⟨d, _, List.cons_append, hd⟩

theorem isWhole_toDigits (n : Nat) : IsWhole (Nat.toDigits 10 n) := by
  rcases Nat.eq_zero_or_pos n with rfl | hn
  · exact .zero
  · have hdigits := isDigit_toDigits n
    obtain ⟨d, ds, hds, hd⟩ := toDigits_eq_cons hn
    rw [hds] at hdigits ⊢
    obtain ⟨hfirst, hrest⟩ := List.forall_mem_cons.mp hdigits
    exact .digits hfirst hd hrest

/-- A whole number is written as a number. -/
theorem isNumber_toString (n : Int) : IsNumber (toString n).toList := by
  have hwritten : ∀ (sign : List Char) (m : Nat), sign = [] ∨ sign = ['-'] →
      IsNumber (sign ++ Nat.toDigits 10 m) := by
    intro sign m hs
    have h := IsNumber.number hs (isWhole_toDigits m) .none .none
    rwa [List.append_nil, List.append_nil] at h
  cases n with
  | ofNat m =>
    show IsNumber m.repr.toList
    rw [Nat.toList_repr]
    exact hwritten [] m (.inl rfl)
  | negSucc m =>
    show IsNumber ("-" ++ (m + 1).repr).toList
    rw [String.toList_append, Nat.toList_repr]
    exact hwritten ['-'] (m + 1) (.inr rfl)

/-! ### Decimals -/

theorem isFraction_zero : IsFraction ['.', '0'] :=
  .some ⟨List.cons_ne_nil _ _, List.forall_mem_singleton.mpr rfl⟩

theorem isDigit_replicate (n : Nat) : ∀ c ∈ List.replicate n '0', c.isDigit = true := by
  intro c hc
  rw [List.eq_of_mem_replicate hc]
  rfl

/-- The power of ten behind a decimal: its sign, and two digits or more. -/
theorem isPower_signed (lead : Int) :
    IsPower ('e' :: [if lead < 0 then '-' else '+'] ++
      (List.replicate (2 - (toString lead.natAbs).toList.length) '0' ++
        (toString lead.natAbs).toList)) := by
  have hwritten : (toString lead.natAbs).toList = Nat.toDigits 10 lead.natAbs := Nat.toList_repr
  refine .some (.inl rfl) (.inr ?_) ⟨?_, ?_⟩
  · split
    · exact .inr rfl
    · exact .inl rfl
  · rw [hwritten]
    simp
  · rw [hwritten]
    exact List.forall_mem_append.mpr ⟨isDigit_replicate _, isDigit_toDigits _⟩

namespace Decimal

open Binary64 (scaled scaled_pos)

/-- A decimal that is not zero is laid out as a number, and a sign may stand in front. -/
theorem isNumber_layout {d : Decimal} (hd : 0 < d.digits) {sign : List Char}
    (hs : sign = [] ∨ sign = ['-']) : IsNumber (sign ++ d.layout) := by
  have hdigits := isDigit_toDigits d.digits
  have hlist : (toString d.digits).toList = Nat.toDigits 10 d.digits := Nat.toList_repr
  obtain ⟨first, rest, hds, hne⟩ := toDigits_eq_cons hd
  rw [hds] at hdigits hlist
  obtain ⟨hfirst, hrest⟩ := List.forall_mem_cons.mp hdigits
  rw [layout, hlist]
  dsimp only
  split
  · split
    · -- zeros behind the digits
      have hwhole : IsWhole (first :: (rest ++ List.replicate d.exponent.toNat '0')) :=
        .digits hfirst hne (List.forall_mem_append.mpr ⟨hrest, isDigit_replicate _⟩)
      have h := IsNumber.number hs hwhole isFraction_zero .none
      simpa using h
    · split
      · -- the point between two digits
        rename_i hexponent hlead
        rw [List.length_cons] at hlead ⊢
        generalize hn : (d.exponent + ((rest.length + 1 : Nat) : Int) - 1).toNat = n at *
        have hwhole : IsWhole (first :: rest.take n) :=
          .digits hfirst hne fun c hc => hrest c (List.mem_of_mem_take hc)
        have hne : rest.drop n ≠ [] := by
          rw [Ne, List.drop_eq_nil_iff]
          omega
        have hfraction : IsFraction ('.' :: rest.drop n) :=
          .some ⟨hne, fun c hc => hrest c (List.mem_of_mem_drop hc)⟩
        have h := IsNumber.number hs hwhole hfraction .none
        simpa using h
      · -- zeros in front of the digits
        have hfraction : IsFraction ('.' :: (List.replicate
            (-(d.exponent + ((first :: rest).length : Int) - 1) - 1).toNat '0' ++ first :: rest)) :=
          .some ⟨by simp, List.forall_mem_append.mpr ⟨isDigit_replicate _, hdigits⟩⟩
        have h := IsNumber.number hs .zero hfraction .none
        simpa using h
  · -- a power of ten
    generalize d.exponent + ((first :: rest).length : Int) - 1 = lead
    have hwhole : IsWhole [first] := .digits hfirst hne (by simp)
    have hfraction : IsFraction (if (first :: rest).length = 1 then [] else '.' :: rest) := by
      split
      · exact .none
      · rename_i hlength
        refine .some ⟨?_, hrest⟩
        rintro rfl
        exact hlength rfl
    have h := IsNumber.number hs hwhole hfraction (isPower_signed lead)
    simpa using h

/-- Zero does not round to a positive number. -/
theorem digits_pos_of_identifies {d : Decimal} {m : Nat} {e : Int} (hm : 0 < m)
    (h : d.identifies m e = true) : 0 < d.digits := by
  apply Nat.pos_of_ne_zero
  intro hzero
  have hbelow : ∀ {low : Nat} (j : Int), 0 < low →
      compareScaled d.digits d.exponent low j = .lt := by
    intro low j hlow
    have hpos : 0 < scaled 10 (scaled 2 low j) (-d.exponent) :=
      scaled_pos (by decide) (scaled_pos (by decide) hlow j) _
    rw [compareScaled, hzero]
    show compare (0 * _ * _) _ = .lt
    rw [Nat.zero_mul, Nat.zero_mul]
    exact Nat.compare_eq_lt.mpr hpos
  rw [identifies] at h
  rw [hbelow _ (by split <;> omega)] at h
  simp at h

theorem digits_pos_of_onGrid? {m : Nat} {e grid : Int} {d : Decimal} (hm : 0 < m)
    (h : onGrid? m e grid = some d) : 0 < d.digits := by
  apply digits_pos_of_identifies (e := e) hm
  rw [onGrid?] at h
  split at h
  · cases h
  · rename_i hlower hupper
    obtain rfl := Option.some.inj h
    exact hlower
  · rename_i hlower hupper
    obtain rfl := Option.some.inj h
    exact hupper
  · rename_i hlower hupper
    split at h
    · obtain rfl := Option.some.inj h
      exact hlower
    · split at h
      · obtain rfl := Option.some.inj h
        exact hupper
      · split at h
        · obtain rfl := Option.some.inj h
          exact hlower
        · obtain rfl := Option.some.inj h
          exact hupper

theorem digits_strip_pos (n : Nat) {d : Decimal} (hd : 0 < d.digits) : 0 < (strip n d).digits := by
  induction n generalizing d with
  | zero => exact hd
  | succ n ih =>
    rw [strip]
    split
    · apply ih
      show 0 < d.digits / 10
      omega
    · exact hd

/-- The decimal that is written for a positive number is not zero. -/
theorem digits_shortest_pos {m : Nat} (hm : 0 < m) (e : Int) : 0 < (shortest m e).digits := by
  unfold shortest
  -- which counts of digits are tried does not matter
  generalize List.range 17 = counts
  generalize magnitude m e = k
  dsimp only
  rcases hfound : counts.findSome? fun (n : Nat) => onGrid? m e (k - (n + 1)) with - | d
  · exact scaled_pos (by decide) (scaled_pos (by decide) hm e) (-e)
  · obtain ⟨n, -, hn⟩ := List.exists_of_findSome?_eq_some hfound
    exact digits_strip_pos 17 (digits_pos_of_onGrid? hm hn)

end Decimal

/-! ### Floating-point numbers -/

namespace Binary64

/-- A finite number is written as a number. -/
theorem isNumber_text {x : Binary64} (hx : x.isFinite = true) (infinityWord nanWord : List Char) :
    IsNumber (x.text infinityWord nanWord) := by
  cases x with
  | nan => cases hx
  | infinity negative => cases hx
  | finite negative m e =>
    have hs : (if negative then ['-'] else []) = [] ∨ (if negative then ['-'] else []) = ['-'] := by
      cases negative
      · exact .inl rfl
      · exact .inr rfl
    rw [text]
    by_cases hm : m = 0
    · rw [if_pos hm]
      have h := IsNumber.number hs .zero isFraction_zero .none
      simpa using h
    · rw [if_neg hm]
      exact Decimal.isNumber_layout (Decimal.digits_shortest_pos (Nat.pos_of_ne_zero hm) e) hs

end Binary64

end ApiOutline
