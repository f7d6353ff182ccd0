import FuturesChains.Number.Power

/-!
# Decimals

A decimal is a whole number of `10 ^ -scale` with at most 28 decimal places and a mantissa below
`2 ^ 96` in size. The scale is part of the value's text: `0.10` and `0.1` are different decimals
of the same size. This module holds the type, its text, and the product. A product is the exact
one, rounded once, a half to the even neighbour, to as many places as fit; there is none when not
even the whole part fits.
-/

namespace FuturesChains

/-- The bound that every mantissa stays below in size. -/
def Decimal.mantissaBound : Nat := twoTo 96

/-- The largest number of decimal places. -/
def Decimal.maxScale : Nat := 28

/-- The number `mantissa * 10 ^ -scale` or its negative, together with its scale. Zero has a sign
like every other number. -/
structure Decimal where
  negative : Bool
  mantissa : Nat
  scale : Nat
  mantissa_lt : mantissa < Decimal.mantissaBound := by decide
  scale_le : scale ≤ Decimal.maxScale := by decide
  deriving DecidableEq

namespace Decimal

/-- The decimal zero without places. -/
def zero : Decimal := ⟨false, 0, 0, by decide, by decide⟩

/-- The decimal one without places. -/
def one : Decimal := ⟨false, 1, 0, by decide, by decide⟩

instance : Inhabited Decimal := ⟨zero⟩

/-- The decimal with this sign, mantissa and scale, if both numbers are in range. -/
def ofParts? (negative : Bool) (mantissa scale : Nat) : Option Decimal :=
  if h : mantissa < mantissaBound ∧ scale ≤ maxScale then
    some ⟨negative, mantissa, scale, h.1, h.2⟩
  else none

theorem toNat_lt_mantissaBound (units : UInt32) : units.toNat < mantissaBound :=
  Nat.lt_trans units.toNat_lt (by decide)

/-- Some units of the last place of a number with some places, at most as many as there can be. -/
def ofUnits (units : UInt32) (places : Nat) : Decimal :=
  ⟨false, units.toNat, min places maxScale, toNat_lt_mantissaBound units, Nat.min_le_right _ _⟩

/-- The decimal is above zero. -/
def isPositive (d : Decimal) : Bool := !d.negative && 0 < d.mantissa

/-- Decimal digits filled up with zeros on the left. -/
def padDigits (width n : Nat) : List Char :=
  let digits := Nat.toDigits 10 n
  List.replicate (width - digits.length) '0' ++ digits

/-- The written form: a minus sign if it is negative, at least one digit before the point, and
exactly `scale` digits after it; no point at scale 0. -/
def toText (d : Decimal) : String :=
  let digits := padDigits (d.scale + 1) d.mantissa
  let whole := digits.take (digits.length - d.scale)
  let places := digits.drop (digits.length - d.scale)
  let sign := if d.negative then ['-'] else []
  String.ofList (sign ++ whole ++ if d.scale = 0 then [] else '.' :: places)

/-- The quotient rounded to the nearest integer, a half to the even neighbour. -/
def roundHalfEven (n d : Nat) : Nat :=
  let q := n / d
  let r := n % d
  if d < 2 * r ∨ 2 * r = d ∧ q % 2 = 1 then q + 1 else q

/-- The quotient rounded to the nearest integer, a half upwards. -/
def roundHalfUp (n d : Nat) : Nat := (2 * n + d) / (2 * d)

/-- The product with the largest scale that fits, rounded once from the exact product. -/
def mul? (a b : Decimal) : Option Decimal :=
  let mantissa := a.mantissa * b.mantissa
  let scale := a.scale + b.scale
  -- each attempt rounds the exact product anew, never an earlier rounding
  (List.range (scale + 1)).findSome? fun drop =>
    ofParts? (a.negative != b.negative) (roundHalfEven mantissa (tenTo drop)) (scale - drop)

/-- Take trailing zeros off a mantissa, at most as many as there are places. -/
def stripZeros (mantissa : Nat) : Nat → Nat × Nat
  | 0 => (mantissa, 0)
  | scale + 1 =>
    if mantissa % 10 = 0 then stripZeros (mantissa / 10) scale else (mantissa, scale + 1)

theorem stripZeros_bounds (mantissa scale : Nat) :
    (stripZeros mantissa scale).1 ≤ mantissa ∧ (stripZeros mantissa scale).2 ≤ scale := by
  induction scale generalizing mantissa with
  | zero => simp [stripZeros]
  | succ scale ih =>
    unfold stripZeros
    split
    · have := ih (mantissa / 10)
      omega
    · simp

/-- The same number with as few places as possible, and no sign at zero. -/
def normalize (d : Decimal) : Decimal :=
  let parts := stripZeros d.mantissa d.scale
  ⟨d.negative && parts.1 != 0, parts.1, parts.2,
    Nat.lt_of_le_of_lt (stripZeros_bounds d.mantissa d.scale).1 d.mantissa_lt,
    Nat.le_trans (stripZeros_bounds d.mantissa d.scale).2 d.scale_le⟩

/-- Stripping zeros keeps the number: the digits taken away are the places that are lost. -/
theorem stripZeros_value (mantissa scale : Nat) :
    (stripZeros mantissa scale).1 * tenTo (scale - (stripZeros mantissa scale).2) = mantissa := by
  induction scale generalizing mantissa with
  | zero => simp [stripZeros, tenTo_zero]
  | succ scale ih =>
    unfold stripZeros
    split
    · rename_i h
      have hle := (stripZeros_bounds (mantissa / 10) scale).2
      have hv := ih (mantissa / 10)
      rw [Nat.succ_sub hle, tenTo_succ, ← Nat.mul_assoc, hv]
      omega
    · simp [tenTo_zero]

/-- Rounding to the nearest integer is off by at most a half. -/
theorem roundHalfEven_near (n d : Nat) (hd : 0 < d) :
    2 * (roundHalfEven n d * d) ≤ 2 * n + d ∧ 2 * n ≤ 2 * (roundHalfEven n d * d) + d := by
  have hdiv := Nat.div_add_mod n d
  have hmod := Nat.mod_lt n hd
  rw [Nat.mul_comm] at hdiv
  unfold roundHalfEven
  simp only
  split
  · rw [Nat.add_mul, Nat.one_mul]
    omega
  · omega

/-- Rounding a half upwards is off by at most a half as well, and goes up at the half itself. -/
theorem roundHalfUp_near (n d : Nat) (hd : 0 < d) :
    2 * (roundHalfUp n d * d) ≤ 2 * n + d ∧ 2 * n < 2 * (roundHalfUp n d * d) + d := by
  have hdiv := Nat.div_add_mod (2 * n + d) (2 * d)
  have hmod := Nat.mod_lt (2 * n + d) (show 0 < 2 * d by omega)
  have hq : 2 * d * ((2 * n + d) / (2 * d)) = 2 * (roundHalfUp n d * d) := by
    rw [Nat.mul_assoc, Nat.mul_comm d]
    rfl
  omega

end Decimal

end FuturesChains
