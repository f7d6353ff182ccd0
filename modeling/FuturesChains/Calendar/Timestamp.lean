import FuturesChains.Calendar.Instant

/-!
# Reading timestamps

The timestamps of RFC 3339: a date, the letter `T` or a space, a time of day with optional decimal
places, and a zone that is `Z` or a signed offset. A text shorter than a date with a time is refused
at once. Any other is read as bytes from the left and the first fault ends the reading: the date is
checked when its day has been read, the time of day after its decimal places, and the size of the
offset at the very end. A second 60 is a leap second on the second before it.
-/

namespace FuturesChains

/-- Why a text is not a timestamp. -/
inductive TimestampFault where
  | tooShort
  | invalid
  | outOfRange
  | trailing
  deriving DecidableEq, Repr

/-- The wording of a timestamp fault. -/
def TimestampFault.message : TimestampFault → String
  | .tooShort => "premature end of input"
  | .invalid => "input contains invalid characters"
  | .outOfRange => "input is out of range"
  | .trailing => "trailing input"

namespace Timestamp

/-- What a reader makes of some bytes: a value and the bytes that are left, or a fault. -/
abbrev Read (α : Type) := Except TimestampFault (α × List UInt8)

/-- The byte of an ASCII character. -/
def byte (c : Char) : UInt8 := c.toNat.toUInt8

/-- The value of a byte that is a decimal digit. -/
def digit? (b : UInt8) : Option Nat :=
  if byte '0' ≤ b && b ≤ byte '9' then some (b.toNat - 48) else none

/-- Read exactly `count` more digits behind a value. -/
def readDigits (value : Nat) : Nat → List UInt8 → Read Nat
  | 0, bytes => .ok (value, bytes)
  | _ + 1, [] => .error .tooShort
  | count + 1, b :: rest =>
    match digit? b with
    | none => .error .invalid
    | some d => readDigits (value * 10 + d) count rest

/-- Read one of some characters. -/
def readMark (marks : List Char) : List UInt8 → Except TimestampFault (List UInt8)
  | [] => .error .tooShort
  | b :: rest => if marks.any (byte · == b) then .ok rest else .error .invalid

/-- The leading digits of some bytes, and the bytes behind them. -/
def leadingDigits : List UInt8 → List Nat × List UInt8
  | [] => ([], [])
  | b :: rest =>
    match digit? b with
    | none => ([], b :: rest)
    | some d =>
      let (digits, left) := leadingDigits rest
      (d :: digits, left)

/-- Read decimal places as nanoseconds. Nine places count and any number may follow. -/
def readPlaces (bytes : List UInt8) : Read Nat :=
  match bytes with
  | [] => .error .tooShort
  | _ =>
    match leadingDigits bytes with
    | ([], _) => .error .invalid
    | (digits, rest) =>
      -- places beyond the nanosecond are read and dropped
      let kept := digits.take 9
      .ok (kept.foldl (fun n d => n * 10 + d) 0 * tenTo (9 - kept.length), rest)

/-- Read the optional decimal places of a second as nanoseconds. -/
def readNanos (bytes : List UInt8) : Read Nat :=
  match bytes with
  | [] => .ok (0, [])
  | b :: rest => if b = byte '.' then readPlaces rest else .ok (0, b :: rest)

/-- Read the sign of an offset: plus, hyphen or the minus sign U+2212. -/
def readSign : List UInt8 → Read Bool
  | [] => .error .tooShort
  | 0xE2 :: 0x88 :: 0x92 :: rest => .ok (true, rest)
  | b :: rest =>
    if b = byte '+' then .ok (false, rest)
    else if b = byte '-' then .ok (true, rest)
    else .error .invalid

/-- Read two digits of an offset, of which the first is at most `tens`. -/
def readOffsetPart (tens : Nat) : List UInt8 → Read Nat
  | first :: second :: rest =>
    match digit? first, digit? second with
    | some a, some b => if a ≤ tens then .ok (a * 10 + b, rest) else .error .outOfRange
    | _, _ => .error .invalid
  | _ => .error .tooShort

/-- Read a zone as seconds east of Greenwich. -/
def readZone (bytes : List UInt8) : Except TimestampFault (Int × List UInt8) :=
  match readMark ['Z', 'z'] bytes with
  | .ok rest => .ok (0, rest)
  | .error _ => do
    let (west, rest) ← readSign bytes
    let (hours, rest) ← readOffsetPart 9 rest
    let rest ← readMark [':'] rest
    let (minutes, rest) ← readOffsetPart 5 rest
    let size : Int := hours * 3600 + minutes * 60
    .ok (if west then -size else size, rest)

/-- Read a date. -/
def readDate (bytes : List UInt8) : Except TimestampFault (Date × List UInt8) := do
  let (year, rest) ← readDigits 0 4 bytes
  let rest ← readMark ['-'] rest
  let (month, rest) ← readDigits 0 2 rest
  let rest ← readMark ['-'] rest
  let (day, rest) ← readDigits 0 2 rest
  match Date.ofCivil? ⟨year, month, day⟩ with
  | some date => .ok (date, rest)
  | none => .error .outOfRange

/-- Read a time of day as seconds and nanoseconds since midnight. -/
def readTime (bytes : List UInt8) : Except TimestampFault ((Nat × Nat) × List UInt8) := do
  let (hour, rest) ← readDigits 0 2 bytes
  let rest ← readMark [':'] rest
  let (minute, rest) ← readDigits 0 2 rest
  let rest ← readMark [':'] rest
  let (second, rest) ← readDigits 0 2 rest
  let (nano, rest) ← readNanos rest
  if 24 ≤ hour ∨ 60 ≤ minute ∨ 61 ≤ second then .error .outOfRange
  -- a leap second counts as a second thousand million nanoseconds of second 59
  else if second = 60 then
    .ok ((hour * 3600 + minute * 60 + 59, nano + Instant.nanosPerSecond), rest)
  else .ok ((hour * 3600 + minute * 60 + second, nano), rest)

/-- The number of bytes of a date and a time of day in whole seconds. -/
def minLength : Nat := 19

/-- Read a timestamp. -/
def read (text : String) : Except TimestampFault Instant := do
  let bytes := text.toUTF8.toList
  if bytes.length < minLength then .error .tooShort
  else do
    let (date, rest) ← readDate bytes
    let rest ← readMark ['t', 'T', ' '] rest
    let ((second, nano), rest) ← readTime rest
    let (offset, rest) ← readZone rest
    if rest ≠ [] then .error .trailing
    else if offset ≤ -secondsPerDay ∨ secondsPerDay ≤ offset then .error .outOfRange
    else match Instant.ofParts? (date.day * secondsPerDay + second - offset) nano with
      | some t => .ok t
      | none => .error .outOfRange

end Timestamp

end FuturesChains
