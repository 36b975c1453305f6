/-
ApiOutline/Number/Binary64.lean

Floating-point numbers of 64 bits, as exact values.

Design.  A finite number is `± significand · 2 ^ exponent`.  The form is
canonical: the significand is below `2 ^ 53`, the exponent is at least `-1074`
and at most `971`, and a significand below `2 ^ 52` has the least exponent; so
equal values of one sign are equal terms.  Every operation computes the exact
rational result and rounds once, to nearest and ties to even (`ofRatio`).
-/

namespace ApiOutline

/-- A floating-point number of 64 bits. -/
inductive Binary64 where
  | nan
  | infinity (negative : Bool)
  | finite (negative : Bool) (significand : Nat) (exponent : Int)
deriving DecidableEq, Repr, Inhabited

namespace Binary64

/-- `n · base ^ exponent`; a negative exponent counts as zero, so that a quotient can carry the
power on one of its two sides. -/
def scaled (base n : Nat) (exponent : Int) : Nat := n * Nat.pow base exponent.toNat

theorem scaled_pos {base n : Nat} (hbase : 0 < base) (hn : 0 < n) (e : Int) :
    0 < scaled base n e :=
  Nat.mul_pos hn (Nat.pow_pos hbase)

/-- Two to the 52nd: the leading bit of a significand that is not below it. -/
def leadingBit : Nat := 0x10000000000000

/-- The least exponent. -/
def minExponent : Int := -1074

/-- The greatest exponent. -/
def maxExponent : Int := 971

/-- A zero of either sign. -/
def zero (negative : Bool) : Binary64 := finite negative 0 minExponent

/-- The quotient of two naturals, rounded to the nearest natural, a tie to the even one. -/
def roundQuotient (num den : Nat) : Nat :=
  let q := num / den
  let r := num % den
  if 2 * r < den then q
  else if den < 2 * r then q + 1
  else if q % 2 = 0 then q else q + 1

/-- The number nearest to a quotient of naturals, a tie going to the even significand; beyond
the greatest number, infinity. -/
def ofRatio (negative : Bool) (num den : Nat) : Binary64 :=
  if num = 0 then zero negative
  else
    let near : Int := (num.log2 : Int) - den.log2
    -- `2 ^ scale ≤ num / den < 2 ^ (scale + 1)`
    let scale := if scaled 2 num (-near) < scaled 2 den near then near - 1 else near
    let exponent := max (scale - 52) minExponent
    let significand := roundQuotient (scaled 2 num (-exponent)) (scaled 2 den exponent)
    let carried := significand = 2 * leadingBit
    let significand := if carried then leadingBit else significand
    let exponent := if carried then exponent + 1 else exponent
    if maxExponent < exponent then infinity negative else finite negative significand exponent

/-- The number nearest to `± significand · 2 ^ exponent`. -/
def ofScaled (negative : Bool) (significand : Nat) (exponent : Int) : Binary64 :=
  ofRatio negative (scaled 2 significand exponent) (scaled 2 1 (-exponent))

/-- The number nearest to `± digits · 10 ^ exponent`.  The first two cases only spare the powers
of ten that no number comes near. -/
def ofDecimal (negative : Bool) (digits : Nat) (exponent : Int) : Binary64 :=
  if digits = 0 then zero negative
  else if 400 < exponent then infinity negative
  else if (digits.log2 : Int) + 1100 < -3 * exponent then zero negative
  else ofRatio negative (scaled 10 digits exponent) (scaled 10 1 (-exponent))

/-- The number nearest to a whole number. -/
def ofInt (n : Int) : Binary64 := ofRatio (n < 0) n.natAbs 1

/-- The whole number that this number is, if it is one. -/
def toInt? : Binary64 → Option Int
  | nan => none
  | infinity _ => none
  | finite negative m e =>
    if scaled 2 m e % scaled 2 1 (-e) = 0 then
      let n : Int := (scaled 2 m e / scaled 2 1 (-e) : Nat)
      some (if negative then -n else n)
    else none

/-- The number is neither infinite nor `nan`. -/
def isFinite : Binary64 → Bool
  | finite .. => true
  | _ => false

/-- Numeric equality: zeros of both signs are equal, and `nan` equals nothing. -/
def alike : Binary64 → Binary64 → Bool
  | nan, _ => false
  | finite _ 0 _, finite _ 0 _ => true
  | x, y => x = y

/-! ### Arithmetic -/

/-- The number with the other sign. -/
def neg : Binary64 → Binary64
  | nan => nan
  | infinity s => infinity (!s)
  | finite s m e => finite (!s) m e

/-- The sum, rounded once. -/
def add : Binary64 → Binary64 → Binary64
  | nan, _ => nan
  | _, nan => nan
  | infinity s, infinity t => if s = t then infinity s else nan
  | infinity s, _ => infinity s
  | _, infinity t => infinity t
  | finite s m d, finite t n e =>
    let least := min d e
    let a : Int := scaled 2 m (d - least)
    let b : Int := scaled 2 n (e - least)
    let sum := (if s then -a else a) + (if t then -b else b)
    if sum = 0 then zero (s && t) else ofScaled (sum < 0) sum.natAbs least

/-- The product, rounded once. -/
def mul : Binary64 → Binary64 → Binary64
  | nan, _ => nan
  | _, nan => nan
  | infinity s, infinity t => infinity (s != t)
  | infinity s, finite t n _ => if n = 0 then nan else infinity (s != t)
  | finite s m _, infinity t => if m = 0 then nan else infinity (s != t)
  | finite s m d, finite t n e => ofScaled (s != t) (m * n) (d + e)

end Binary64

end ApiOutline
