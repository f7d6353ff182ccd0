/-!
# Bounded integers

Decimal reading of a signed 64-bit integer. The text is scanned from the left and the first
character that cannot be part of a number in range decides which fault is reported. The main
statement, `readInt64_bounds`, says that whatever is read lies in the 64-bit range.
-/

namespace FuturesChains

/-- Why a text is not a 64-bit integer. -/
inductive IntegerFault where
  | empty
  | invalidDigit
  | tooLarge
  | tooSmall
  deriving DecidableEq, Repr

/-- The wording of an integer fault. -/
def IntegerFault.message : IntegerFault → String
  | .empty => "cannot parse integer from empty string"
  | .invalidDigit => "invalid digit found in string"
  | .tooLarge => "number too large to fit in target type"
  | .tooSmall => "number too small to fit in target type"

/-- The largest signed 64-bit integer. -/
def maxInt64 : Int := 9223372036854775807

/-- The smallest signed 64-bit integer. -/
def minInt64 : Int := -9223372036854775808

/-- The value of a decimal digit. -/
def digitValue (c : Char) : Option Nat :=
  if c.isDigit then some (c.toNat - 48) else none

/-- Append decimal digits to a number that is not negative. -/
def readUpward (value : Int) : List Char → Except IntegerFault Int
  | [] => .ok value
  | c :: rest =>
    match digitValue c with
    | none => .error .invalidDigit
    | some d =>
      let next := value * 10 + d
      if next ≤ maxInt64 then readUpward next rest else .error .tooLarge

/-- Append decimal digits to a number that is not positive, away from zero. -/
def readDownward (value : Int) : List Char → Except IntegerFault Int
  | [] => .ok value
  | c :: rest =>
    match digitValue c with
    | none => .error .invalidDigit
    | some d =>
      let next := value * 10 - d
      if minInt64 ≤ next then readDownward next rest else .error .tooSmall

/-- Read a signed 64-bit integer: an optional sign and at least one digit. -/
def readInt64 (text : String) : Except IntegerFault Int :=
  match text.toList with
  | [] => .error .empty
  | ['+'] | ['-'] => .error .invalidDigit
  | '+' :: digits => readUpward 0 digits
  | '-' :: digits => readDownward 0 digits
  | digits => readUpward 0 digits

theorem readUpward_bounds {value result : Int} {cs : List Char} (hlow : 0 ≤ value)
    (hhigh : value ≤ maxInt64) (h : readUpward value cs = .ok result) :
    0 ≤ result ∧ result ≤ maxInt64 := by
  induction cs generalizing value with
  | nil =>
    obtain rfl : value = result := by simpa [readUpward] using h
    exact ⟨hlow, hhigh⟩
  | cons c rest ih =>
    unfold readUpward at h
    split at h
    · cases h
    · simp only at h
      split at h
      · rename_i hnext
        exact ih (by omega) hnext h
      · cases h

theorem readDownward_bounds {value result : Int} {cs : List Char} (hlow : minInt64 ≤ value)
    (hhigh : value ≤ 0) (h : readDownward value cs = .ok result) :
    minInt64 ≤ result ∧ result ≤ 0 := by
  induction cs generalizing value with
  | nil =>
    obtain rfl : value = result := by simpa [readDownward] using h
    exact ⟨hlow, hhigh⟩
  | cons c rest ih =>
    unfold readDownward at h
    split at h
    · cases h
    · simp only at h
      split at h
      · rename_i hnext
        exact ih hnext (by omega) h
      · cases h

/-- A number that is read fits in 64 bits. -/
theorem readInt64_bounds {text : String} {value : Int} (h : readInt64 text = .ok value) :
    minInt64 ≤ value ∧ value ≤ maxInt64 := by
  have up : ∀ {cs : List Char}, readUpward 0 cs = .ok value →
      minInt64 ≤ value ∧ value ≤ maxInt64 := fun h => by
    have := readUpward_bounds (Int.le_refl 0) (by decide) h
    exact ⟨Int.le_trans (by decide) this.1, this.2⟩
  have down : ∀ {cs : List Char}, readDownward 0 cs = .ok value →
      minInt64 ≤ value ∧ value ≤ maxInt64 := fun h => by
    have := readDownward_bounds (by decide) (Int.le_refl 0) h
    exact ⟨this.1, Int.le_trans this.2 (by decide)⟩
  unfold readInt64 at h
  split at h
  · cases h
  · cases h
  · cases h
  · exact up h
  · exact down h
  · exact up h

end FuturesChains
