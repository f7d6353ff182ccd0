import FuturesChains.Number.Decimal
import FuturesChains.Number.Integer

/-!
# Reading decimals

A plain decimal is an optional sign, digits with at most one point, and underscores after the first
digit. Digits are taken up while they fit: at 28 places, or when the mantissa is full after the
point, the next digit rounds the last place, a half upwards, and only digits and underscores may
follow. A plain zero has no sign. The scientific form puts a power of ten behind a plain decimal; a
negative power may round once more, and a number that this rounds to zero keeps its sign.
-/

namespace FuturesChains.Decimal

/-- What has been read of a plain decimal: the mantissa's size, the places after the point, whether
the point and whether a digit has been seen. -/
structure Reading where
  size : Nat
  places : Nat
  pointSeen : Bool
  digitSeen : Bool

/-- Before the first digit. -/
def Reading.start : Reading := ⟨0, 0, false, false⟩

/-- The decimal that has been read; zero loses its sign. -/
def Reading.finish (negative : Bool) (r : Reading) : Option Decimal :=
  if r.digitSeen then ofParts? (negative && r.size != 0) r.size r.places else none

/-- From this size on a mantissa is wide: one more digit might not fit in 64 bits. -/
def wideBound : Nat := 1844674407370954906

/-- The mantissa was wide before its last digit. -/
def Reading.isWide (r : Reading) : Bool := wideBound ≤ r.size / 10

/-- The characters that may stand behind the digits that are taken up. -/
def isFillable (c : Char) : Bool := c = '_' || (digitValue c).isSome

/-- The digit that rounds, in front of the text that is not taken up. An underscore in its place is
passed over behind a wide mantissa, and is a zero behind any other. -/
def Reading.roundingDigit (r : Reading) (rest : List Char) : Option Nat :=
  if rest.all isFillable then
    let rest := if r.isWide then rest.dropWhile (· = '_') else rest
    some ((rest.head?.bind digitValue).getD 0)
  else none

/-- One more in the last place. A mantissa that overflows gives up its last place. -/
def Reading.roundUp (r : Reading) : Option Reading :=
  if r.size + 1 < mantissaBound then some { r with size := r.size + 1 }
  -- no room for the carry: drop a place, or fail if there is none
  else match r.places with
    | 0 => none
    | places + 1 => some { r with size := (r.size + 5) / 10, places := places }

/-- Round by the text that no longer fits. -/
def Reading.round (r : Reading) (rest : List Char) : Option Reading :=
  match r.roundingDigit rest with
  | none => none
  | some d => if d < 5 then some r else r.roundUp

/-- The reading after one more digit. -/
def Reading.push (r : Reading) (d : Nat) : Reading :=
  { r with
    size := r.size * 10 + d
    places := if r.pointSeen then r.places + 1 else r.places
    digitSeen := true }

/-- Read the digits, the point and the underscores of a plain decimal. -/
def Reading.run (r : Reading) : List Char → Option Reading
  | [] => some r
  | c :: rest =>
    match digitValue c with
    | some d =>
      let next := r.push d
      -- before the point a digit that does not fit cannot be given up
      if mantissaBound ≤ next.size then
        if r.pointSeen then r.round (c :: rest) else none
      else if next.pointSeen && maxScale ≤ next.places then next.round rest
      else next.run rest
    | none =>
      if c = '.' ∧ r.pointSeen = false then Reading.run { r with pointSeen := true } rest
      else if c = '_' ∧ r.digitSeen = true then r.run rest
      else none

/-- Read a plain decimal. -/
def ofPlain? (cs : List Char) : Option Decimal :=
  match cs with
  | '-' :: rest => (Reading.start.run rest).bind (Reading.finish true)
  | '+' :: rest => (Reading.start.run rest).bind (Reading.finish false)
  | _ => (Reading.start.run cs).bind (Reading.finish false)

/-- Read an exponent without a minus sign: an optional plus sign and digits, below `2 ^ 32`. -/
def readExponent (cs : List Char) : Option Nat :=
  let digits := match cs with
    | '+' :: rest => rest
    | _ => cs
  if digits.isEmpty then none
  else
    let value := digits.foldlM (fun n c => (digitValue c).map (n * 10 + ·)) 0
    value.filter (· < twoTo 32)

/-- A decimal times a power of ten that is at most `10 ^ 28`. Places are used up first; a number
that needs more digits than it has places becomes a whole number. -/
def raise (d : Decimal) (exponent : Nat) : Option Decimal :=
  if exponent ≤ d.scale then ofParts? d.negative d.mantissa (d.scale - exponent)
  else if maxScale < exponent then none
  else ofParts? d.negative (d.mantissa * tenTo (exponent - d.scale)) 0

/-- A decimal divided by a power of ten that is at most `10 ^ 28`. What goes beyond the last place
is rounded away, a half away from zero. -/
def reduce (d : Decimal) (exponent : Nat) : Option Decimal :=
  let scale := d.scale + exponent
  if maxScale < exponent then none
  else if scale ≤ maxScale then ofParts? d.negative d.mantissa scale
  else ofParts? d.negative (roundHalfUp d.mantissa (tenTo (scale - maxScale))) maxScale

/-- Read a plain decimal, the letter `e` in either case, and an exponent. -/
def ofScientific? (cs : List Char) : Option Decimal :=
  let isMark (c : Char) : Bool := c = 'e' || c = 'E'
  match cs.dropWhile (!isMark ·) with
  | [] => none
  | _ :: exponent =>
    match ofPlain? (cs.takeWhile (!isMark ·)) with
    | none => none
    | some base =>
      match exponent with
      | '-' :: digits => (readExponent digits).bind base.reduce
      | digits => (readExponent digits).bind base.raise

/-- Read a decimal in plain form or, where that fails, in scientific form. -/
def ofText? (text : String) : Option Decimal :=
  (ofPlain? text.toList).or (ofScientific? text.toList)

end FuturesChains.Decimal
