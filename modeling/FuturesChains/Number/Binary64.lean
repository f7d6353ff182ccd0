import FuturesChains.Number.Decimal

/-!
# Binary floating point numbers as decimal text

A number in a JSON document that is not a 64-bit integer is held in double precision. This module
rounds such a number to the nearest double and writes a double with the fewest digits that read
back as the same one. All arithmetic is exact arithmetic on natural numbers.
-/

namespace FuturesChains

/-- The number `significand * 2 ^ exponent`, which is not negative. -/
structure Binary64 where
  significand : Nat
  exponent : Int

namespace Binary64

/-- The smallest exponent of a double whose significand is whole. -/
def minExponent : Int := -1074

/-- A power as the numerator of a fraction; 1 for a negative exponent. -/
def above (base : Nat) (exponent : Int) : Nat := Nat.pow base exponent.toNat

/-- A power as the denominator of a fraction; 1 for an exponent that is not negative. -/
def below (base : Nat) (exponent : Int) : Nat := Nat.pow base (-exponent).toNat

/-- The double nearest to a quotient, a tie to the even significand. -/
def ofRatio (num den : Nat) : Binary64 :=
  if num = 0 then ⟨0, minExponent⟩
  else
    -- the quotient lies between 2 ^ (estimate + 51) and 2 ^ (estimate + 53)
    let estimate : Int := (Nat.log2 num : Int) - (Nat.log2 den : Int) - 52
    let short := num * below 2 estimate < twoTo 52 * (den * above 2 estimate)
    let exponent := max (if short then estimate - 1 else estimate) minExponent
    let significand := Decimal.roundHalfEven (num * below 2 exponent) (den * above 2 exponent)
    -- rounding up may need one more binary digit
    if significand = twoTo 53 then ⟨twoTo 52, exponent + 1⟩ else ⟨significand, exponent⟩

/-- The double nearest to a power of ten. -/
def powerOfTen (exponent : Nat) : Binary64 := ofRatio (tenTo exponent) 1

/-- The numerator of a double as a fraction. -/
def num (x : Binary64) : Nat := x.significand * above 2 x.exponent

/-- The denominator of a double as a fraction. -/
def den (x : Binary64) : Nat := below 2 x.exponent

/-- The double nearest to a product of two doubles. -/
def mul (x y : Binary64) : Binary64 := ofRatio (x.num * y.num) (x.den * y.den)

/-- The double nearest to a quotient of two doubles. -/
def div (x y : Binary64) : Binary64 := ofRatio (x.num * y.den) (x.den * y.num)

/-- The largest power of ten that a double is divided by in one step. -/
def maxTenExponent : Nat := 308

/-- Divide by a power of ten in steps of at most `10 ^ 308`. Zero stays zero. -/
def shiftDown (x : Binary64) (exponent : Nat) : Binary64 :=
  if exponent ≤ maxTenExponent then x.div (powerOfTen exponent)
  else if x.significand = 0 then x
  else shiftDown (x.div (powerOfTen maxTenExponent)) (exponent - maxTenExponent)
  termination_by exponent
  decreasing_by simp only [maxTenExponent] at *; omega

/-- The largest exponent of a double whose significand is whole. -/
def maxExponent : Int := 971

/-- The double for `digits * 10 ^ exponent`: the digits are rounded to a double first, and the power
of ten is applied to that. There is none beyond the largest double. -/
def ofScaled? (digits : Nat) (exponent : Int) : Option Binary64 :=
  if digits = 0 then some ⟨0, minExponent⟩
  else if exponent < 0 then some ((ofRatio digits 1).shiftDown (-exponent).toNat)
  else if maxTenExponent < exponent then none
  else
    let x := (ofRatio digits 1).mul (powerOfTen exponent.toNat)
    if x.exponent ≤ maxExponent then some x else none

/-- A multiple of a power of ten within the interval of numbers that round to `x`, the nearer one
of the two neighbours of `x` on that grid and the upper one if both are as near. -/
def onGrid (x : Binary64) (place : Int) : Option Nat :=
  -- everything is counted in quarters of the last binary place
  let quarter := x.exponent - 2
  let unitNum := above 10 place * below 2 quarter
  let unitDen := below 10 place * above 2 quarter
  let centre := 4 * x.significand
  -- below a power of two the doubles lie twice as close
  let narrow := x.significand = twoTo 52 && minExponent < x.exponent
  let low := centre - (if narrow then 1 else 2)
  let high := centre + 2
  let inside (n : Nat) : Bool :=
    let lowSide := low * unitDen
    let highSide := high * unitDen
    let here := n * unitNum
    if x.significand % 2 = 0 then lowSide ≤ here && here ≤ highSide
    else lowSide < here && here < highSide
  let lower := centre * unitDen / unitNum
  let upper := lower + 1
  let lowerFits := lower != 0 && inside lower
  let upperFits := inside upper
  if lowerFits && upperFits then
    if centre * unitDen - lower * unitNum < upper * unitNum - centre * unitDen then some lower
    else some upper
  else if lowerFits then some lower
  else if upperFits then some upper
  else none

/-- The fewest digits that read back as the double, with the place of the last of them. -/
def shortest (x : Binary64) : Nat × Int :=
  if x.significand = 0 then (0, 0)
  else
    -- from the coarsest grid that a double can lie on to one finer than any double
    let found := (List.range 660).findSome? fun (i : Nat) =>
      let place : Int := 310 - (i : Int)
      (x.onGrid place).map fun n => (n, place)
    found.getD (0, 0)

/-- The positional text of the shortest digits: no exponent, and no point in a whole number. -/
def toText (negative : Bool) (x : Binary64) : String :=
  let (digits, place) := x.shortest
  let sign := if negative then ['-'] else []
  let body :=
    if 0 ≤ place then Nat.toDigits 10 (digits * tenTo place.toNat)
    else
      let places := (-place).toNat
      let padded := Decimal.padDigits (places + 1) digits
      padded.take (padded.length - places) ++ '.' :: padded.drop (padded.length - places)
  String.ofList (sign ++ body)

end Binary64

end FuturesChains
