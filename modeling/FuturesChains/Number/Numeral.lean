import FuturesChains.Number.Binary64
import FuturesChains.Number.Integer

/-!
# Numerals

A numeral is a number as a document writes it: a sign, digits, digits after a point, and an
exponent. How it is written decides how it is read. Without a point and an exponent it is an
integer, as long as 64 bits hold it; every other numeral is read in double precision, from as many
leading digits as 64 bits hold.
-/

namespace FuturesChains

/-- A number as it is written. Without a point there are no digits after it. -/
structure Numeral where
  negative : Bool
  whole : List Nat
  fraction : List Nat
  exponent : Option Int
  deriving DecidableEq

namespace Numeral

/-- An integer in plain digits. -/
def ofInt (n : Int) : Numeral :=
  ⟨decide (n < 0), (Nat.toDigits 10 n.natAbs).filterMap digitValue, [], none⟩

/-- The number that digits stand for. -/
def ofDigits (digits : List Nat) : Nat := digits.foldl (fun n d => n * 10 + d) 0

/-- The integer that the numeral stands for, if it is written as one and fits: from `-2 ^ 63` to
below `2 ^ 64`. A zero with a minus sign is not an integer. -/
def integer? (n : Numeral) : Option Int :=
  let size := ofDigits n.whole
  if n.fraction ≠ [] ∨ n.exponent.isSome then none
  else if n.negative then
    if 0 < size ∧ minInt64 ≤ -(size : Int) then some (-(size : Int)) else none
  else if size < twoTo 64 then some size else none

/-- Append digits while the number fits in 64 bits, and count the digits that are left. -/
def appendWhole (value : Nat) : List Nat → Nat × Nat
  | [] => (value, 0)
  | d :: rest =>
    let next := value * 10 + d
    if next < twoTo 64 then appendWhole next rest else (value, rest.length + 1)

/-- Append digits while the number fits in 64 bits, and count the digits that are appended. -/
def appendFraction (value : Nat) : List Nat → Nat × Nat
  | [] => (value, 0)
  | d :: rest =>
    let next := value * 10 + d
    if next < twoTo 64 then
      let (digits, count) := appendFraction next rest
      (digits, count + 1)
    else (value, 0)

/-- The leading digits that fit in 64 bits, with the power of ten that they are a multiple of. -/
def leading (n : Numeral) : Nat × Int :=
  let (whole, dropped) := appendWhole 0 n.whole
  let (digits, placed) := appendFraction whole n.fraction
  (digits, (dropped : Int) - placed + n.exponent.getD 0)

/-- The size of the numeral in double precision. -/
def double? (n : Numeral) : Option Binary64 :=
  Binary64.ofScaled? n.leading.1 n.leading.2

/-- Whatever is read as an integer is a signed or an unsigned number of 64 bits. -/
theorem integer?_bounds {n : Numeral} {value : Int} (h : n.integer? = some value) :
    minInt64 ≤ value ∧ value < twoTo 64 := by
  unfold integer? at h
  simp only at h
  split at h
  · cases h
  · split at h
    · split at h
      · rename_i hsize
        obtain rfl := Option.some.inj h
        have : (0 : Int) ≤ twoTo 64 := Int.natCast_nonneg _
        omega
      · cases h
    · split at h
      · rename_i hsize
        obtain rfl := Option.some.inj h
        have : minInt64 ≤ 0 := by decide
        omega
      · cases h

/-- The digits that are kept never exceed 64 bits. -/
theorem appendWhole_lt {value : Nat} (digits : List Nat) (h : value < twoTo 64) :
    (appendWhole value digits).1 < twoTo 64 := by
  induction digits generalizing value with
  | nil => exact h
  | cons d rest ih =>
    unfold appendWhole
    simp only
    split
    · rename_i hnext
      exact ih hnext
    · exact h

end Numeral

end FuturesChains
