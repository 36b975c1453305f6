/-
ApiOutline/Number/Shortest.lean

The fewest decimal digits that identify a floating-point number.

Design.  A decimal identifies a number when it lies among the reals that round
to it.  For 1, 2, … 17 digits the two neighbours of the number on that decimal
grid are tried in exact arithmetic; the first grid with a hit wins, of two hits
the nearer, and of two equally near the even one.  Then the digits are laid out:
positionally while the leading digit stands for a power of ten from -4 up to 15,
otherwise with a signed exponent of at least two digits.
-/
import ApiOutline.Number.Binary64

namespace ApiOutline

/-- The decimal `digits · 10 ^ exponent`. -/
structure Decimal where
  digits : Nat
  exponent : Int
deriving DecidableEq, Repr

namespace Decimal

open Binary64 (scaled leadingBit minExponent)

/-- Compares `a · 10 ^ i` with `n · 2 ^ j`. -/
def compareScaled (a : Nat) (i : Int) (n : Nat) (j : Int) : Ordering :=
  compare (scaled 2 (scaled 10 a i) (-j)) (scaled 10 (scaled 2 n j) (-i))

/-- The decimal lies among the reals that round to `m · 2 ^ e`.  The ends belong to them exactly
when `m` is even; the gap below the least significand of a binade is half the gap above. -/
def identifies (d : Decimal) (m : Nat) (e : Int) : Bool :=
  let low := if m = leadingBit ∧ minExponent < e then 4 * m - 1 else 4 * m - 2
  let high := 4 * m + 2
  let closed := m % 2 = 0
  let atLow := compareScaled d.digits d.exponent low (e - 2)
  let atHigh := compareScaled d.digits d.exponent high (e - 2)
  (atLow = .gt || (closed && atLow = .eq)) && (atHigh = .lt || (closed && atHigh = .eq))

/-- The power of ten just above `m · 2 ^ e`. -/
def magnitude (m : Nat) (e : Int) : Int :=
  let near := Int.fdiv (((m.log2 : Int) + e) * 30103) 100000
  (([0, 1, 2].map (near + ·)).find? fun k => compareScaled 1 k m e = .gt).getD (near + 3)

/-- The neighbour of `m · 2 ^ e` on the decimal grid `10 ^ grid` that identifies it. -/
def onGrid? (m : Nat) (e grid : Int) : Option Decimal :=
  let num := scaled 10 (scaled 2 m e) (-grid)
  let den := scaled 10 (scaled 2 1 (-e)) grid
  let below := num / den
  let lower : Decimal := ⟨below, grid⟩
  let upper : Decimal := ⟨below + 1, grid⟩
  match lower.identifies m e, upper.identifies m e with
  | false, false => none
  | true, false => some lower
  | false, true => some upper
  | true, true =>
    if 2 * num < (2 * below + 1) * den then some lower
    else if (2 * below + 1) * den < 2 * num then some upper
    else if below % 2 = 0 then some lower else some upper

/-- The decimal without zeros at its end. -/
def strip : Nat → Decimal → Decimal
  | 0, d => d
  | n + 1, d => if d.digits % 10 = 0 then strip n ⟨d.digits / 10, d.exponent + 1⟩ else d

/-- The shortest decimal that identifies the positive number `m · 2 ^ e`; should seventeen
digits not do, its exact value. -/
def shortest (m : Nat) (e : Int) : Decimal :=
  let k := magnitude m e
  match (List.range 17).findSome? fun (n : Nat) => onGrid? m e (k - (n + 1)) with
  | some d => strip 17 d
  | none => ⟨scaled 5 (scaled 2 m e) (-e), min e 0⟩

/-- The digits, laid out with a point or an exponent. -/
def layout (d : Decimal) : List Char :=
  let ds := (toString d.digits).toList
  let lead : Int := d.exponent + ds.length - 1
  if -4 ≤ lead ∧ lead < 16 then
    if 0 ≤ d.exponent then ds ++ List.replicate d.exponent.toNat '0' ++ ['.', '0']
    else if 0 ≤ lead then ds.take (lead.toNat + 1) ++ '.' :: ds.drop (lead.toNat + 1)
    else '0' :: '.' :: (List.replicate (-lead - 1).toNat '0' ++ ds)
  else
    let power := (toString lead.natAbs).toList
    ds.take 1 ++ (if ds.length = 1 then [] else '.' :: ds.drop 1) ++
      'e' :: (if lead < 0 then '-' else '+') ::
      (List.replicate (2 - power.length) '0' ++ power)

end Decimal

namespace Binary64

/-- The text of a number: the fewest digits that identify it, with the given words for infinity
and `nan`. -/
def text (infinityWord nanWord : List Char) : Binary64 → List Char
  | nan => nanWord
  | infinity negative => (if negative then ['-'] else []) ++ infinityWord
  | finite negative m e =>
    (if negative then ['-'] else []) ++
      (if m = 0 then ['0', '.', '0'] else (Decimal.shortest m e).layout)

/-- The text of a number in messages. -/
def plainText (x : Binary64) : List Char := x.text ['i', 'n', 'f'] ['n', 'a', 'n']

end Binary64

end ApiOutline
