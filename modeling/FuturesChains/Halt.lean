/-!
# Questions without an answer

Three questions have no answer in the numbers and dates of this library: a product of decimals whose
whole part does not fit, the local time of an instant at the very end of the calendar, and a time of
day whose seconds do not fit in 32 bits. A computation that meets one of them stops.
-/

namespace FuturesChains

/-- Why a computation stops without an answer. -/
inductive Halt where
  | productTooLarge
  | localTimeOutOfRange
  | timeOfDayTooLarge
  deriving DecidableEq, Repr

/-- The wording for a stop. -/
def Halt.message : Halt → String
  | .productTooLarge => "the product of tick size and multiplier is too large for a decimal"
  | .localTimeOutOfRange => "the local time lies outside the calendar"
  | .timeOfDayTooLarge => "the seconds of the time of day do not fit in 32 bits"

/-- The value of an optional result, or a stop where there is none. -/
def Halt.orStop {α : Type} (reason : Halt) : Option α → Except Halt α
  | some value => .ok value
  | none => .error reason

/-- Whether a computation gives an answer is decided by running it. -/
instance {α : Type} [DecidableEq α] (x : Except Halt α) (a : α) : Decidable (x = .ok a) :=
  match x with
  | .ok b => decidable_of_iff (b = a) (by simp)
  | .error _ => isFalse (by simp)

/-- A computation in two parts answers when both parts do. -/
theorem Halt.bind_eq_ok {α β : Type} {x : Except Halt α} {f : α → Except Halt β} {b : β} :
    (x >>= f) = .ok b ↔ ∃ a, x = .ok a ∧ f a = .ok b := by
  cases x <;> simp [bind, Except.bind]

/-- A changed answer comes from an answer. -/
theorem Halt.map_eq_ok {α β : Type} {x : Except Halt α} {f : α → β} {b : β} :
    x.map f = .ok b ↔ ∃ a, x = .ok a ∧ f a = b := by
  cases x <;> simp [Except.map]

end FuturesChains
