/-!
# Powers of two and of ten

The powers that decimal and binary numbers are scaled by.
-/

namespace FuturesChains

/-- A power of two. -/
def twoTo (exponent : Nat) : Nat := Nat.pow 2 exponent

/-- A power of ten. -/
def tenTo (exponent : Nat) : Nat := Nat.pow 10 exponent

theorem tenTo_zero : tenTo 0 = 1 := rfl

theorem tenTo_succ (exponent : Nat) : tenTo (exponent + 1) = tenTo exponent * 10 := rfl

/-- No power of ten is zero. -/
theorem tenTo_pos (exponent : Nat) : 0 < tenTo exponent := by
  induction exponent with
  | zero => rw [tenTo_zero]; exact Nat.one_pos
  | succ exponent ih =>
    rw [tenTo_succ]
    omega

end FuturesChains
