import FuturesChains.Calendar.Date

/-!
# Written numbers

A number is written with decimal digits, one at least, behind an optional sign (`WritesInt`). The
reader of 64-bit integers goes through the digits from the left and stops where the number so far
is out of range. Since a number only grows with the digits behind it, these are the numbers out of
range as a whole: `readInt64_eq_ok_iff` says that just the written numbers in range are read.
-/

namespace FuturesChains

/-- The number that some digits behind a number write. -/
def appendDigits (value : Nat) (digits : List Char) : Nat :=
  digits.foldl (fun n c => n * 10 + (c.toNat - 48)) value

theorem appendDigits_cons (value : Nat) (c : Char) (digits : List Char) :
    appendDigits value (c :: digits) = appendDigits (value * 10 + (c.toNat - 48)) digits := by
  simp only [appendDigits, List.foldl_cons]

/-- The digits of a number are behind no other number. -/
theorem appendDigits_zero (digits : List Char) : appendDigits 0 digits = Date.digitsValue digits :=
  rfl

/-- A number does not get smaller by the digits behind it. -/
theorem le_appendDigits (value : Nat) (digits : List Char) :
    value ≤ appendDigits value digits := by
  induction digits generalizing value with
  | nil => exact Nat.le_refl value
  | cons c digits ih =>
      have hrest := ih (value * 10 + (c.toNat - 48))
      rw [appendDigits_cons]
      omega

/-- Zeros behind some digits multiply by ten. -/
theorem digitsValue_append_zeros (digits : List Char) (count : Nat) :
    Date.digitsValue (digits ++ List.replicate count '0') =
      Date.digitsValue digits * tenTo count := by
  induction count with
  | zero => simp [tenTo_zero]
  | succ count ih =>
      rw [List.replicate_succ', ← List.append_assoc, tenTo_succ, ← Nat.mul_assoc, ← ih]
      simp [Date.digitsValue]

/-- A number is written with digits, one at least, behind an optional sign. -/
inductive WritesInt : List Char → Int → Prop
  | bare {digits : List Char} (hne : digits ≠ []) (hdigits : ∀ c ∈ digits, c.isDigit = true) :
      WritesInt digits (Date.digitsValue digits)
  | plus {digits : List Char} (hne : digits ≠ []) (hdigits : ∀ c ∈ digits, c.isDigit = true) :
      WritesInt ('+' :: digits) (Date.digitsValue digits)
  | minus {digits : List Char} (hne : digits ≠ []) (hdigits : ∀ c ∈ digits, c.isDigit = true) :
      WritesInt ('-' :: digits) (-(Date.digitsValue digits : Int))

variable {value : Nat} {cs digits : List Char} {n : Int}

theorem digitValue_of_isDigit {c : Char} (h : c.isDigit = true) :
    digitValue c = some (c.toNat - 48) := by
  rw [digitValue, if_pos h]

theorem digitValue_of_not_isDigit {c : Char} (h : ¬ c.isDigit = true) : digitValue c = none := by
  rw [digitValue, if_neg h]

/-- Digits are read upwards if the number that they write is not too large. -/
theorem readUpward_eq_ok_iff (hvalue : (value : Int) ≤ maxInt64) :
    readUpward value cs = .ok n ↔
      (∀ c ∈ cs, c.isDigit = true) ∧ n = appendDigits value cs ∧ n ≤ maxInt64 := by
  induction cs generalizing value with
  | nil =>
      simp only [readUpward, appendDigits, List.foldl_nil, Except.ok.injEq]
      constructor
      · rintro rfl
        exact ⟨List.forall_mem_nil _, rfl, hvalue⟩
      · exact fun h => h.2.1.symm
  | cons c rest ih =>
      by_cases hc : c.isDigit = true
      · simp only [readUpward, digitValue_of_isDigit hc, List.forall_mem_cons, hc, true_and,
          appendDigits_cons]
        have hcast : (value : Int) * 10 + (c.toNat - 48 : Nat) =
            (value * 10 + (c.toNat - 48) : Nat) := by omega
        rw [hcast]
        split
        · rename_i hnext
          exact ih hnext
        · have hgrows := le_appendDigits (value * 10 + (c.toNat - 48)) rest
          refine iff_of_false (by simp) ?_
          rintro ⟨-, rfl, hmax⟩
          omega
      · simp [readUpward, digitValue_of_not_isDigit hc, hc]

/-- Digits are read downwards if the number that they write with a minus is not too small. -/
theorem readDownward_eq_ok_iff (hvalue : minInt64 ≤ -(value : Int)) :
    readDownward (-(value : Int)) cs = .ok n ↔
      (∀ c ∈ cs, c.isDigit = true) ∧ n = -(appendDigits value cs : Int) ∧ minInt64 ≤ n := by
  induction cs generalizing value with
  | nil =>
      simp only [readDownward, appendDigits, List.foldl_nil, Except.ok.injEq]
      constructor
      · rintro rfl
        exact ⟨List.forall_mem_nil _, rfl, hvalue⟩
      · exact fun h => h.2.1.symm
  | cons c rest ih =>
      by_cases hc : c.isDigit = true
      · simp only [readDownward, digitValue_of_isDigit hc, List.forall_mem_cons, hc, true_and,
          appendDigits_cons]
        have hcast : -(value : Int) * 10 - (c.toNat - 48 : Nat) =
            -((value * 10 + (c.toNat - 48) : Nat) : Int) := by omega
        rw [hcast]
        split
        · rename_i hnext
          exact ih hnext
        · have hgrows := le_appendDigits (value * 10 + (c.toNat - 48)) rest
          refine iff_of_false (by simp) ?_
          rintro ⟨-, rfl, hmin⟩
          omega
      · simp [readDownward, digitValue_of_not_isDigit hc, hc]

/-- Behind a plus there are the digits of the number. -/
theorem writesInt_plus_iff : WritesInt ('+' :: digits) n ↔
    digits ≠ [] ∧ (∀ c ∈ digits, c.isDigit = true) ∧ n = Date.digitsValue digits := by
  constructor
  · intro h
    cases h with
    | bare hne hdigits => exact absurd (hdigits '+' List.mem_cons_self) (by decide)
    | plus hne hdigits => exact ⟨hne, hdigits, rfl⟩
  · rintro ⟨hne, hdigits, rfl⟩
    exact .plus hne hdigits

/-- Behind a minus there are the digits of the number, turned around. -/
theorem writesInt_minus_iff : WritesInt ('-' :: digits) n ↔
    digits ≠ [] ∧ (∀ c ∈ digits, c.isDigit = true) ∧ n = -(Date.digitsValue digits : Int) := by
  constructor
  · intro h
    cases h with
    | bare hne hdigits => exact absurd (hdigits '-' List.mem_cons_self) (by decide)
    | minus hne hdigits => exact ⟨hne, hdigits, rfl⟩
  · rintro ⟨hne, hdigits, rfl⟩
    exact .minus hne hdigits

/-- Without a sign there are only the digits. -/
theorem writesInt_bare_iff (hplus : ∀ rest, cs ≠ '+' :: rest) (hminus : ∀ rest, cs ≠ '-' :: rest) :
    WritesInt cs n ↔
      cs ≠ [] ∧ (∀ c ∈ cs, c.isDigit = true) ∧ n = Date.digitsValue cs := by
  constructor
  · intro h
    cases h with
    | bare hne hdigits => exact ⟨hne, hdigits, rfl⟩
    | plus => exact absurd rfl (hplus _)
    | minus => exact absurd rfl (hminus _)
  · rintro ⟨hne, hdigits, rfl⟩
    exact .bare hne hdigits

/-- The numbers that are read are the written ones that fit in 64 bits. -/
theorem readInt64_eq_ok_iff {text : String} :
    readInt64 text = .ok n ↔ WritesInt text.toList n ∧ minInt64 ≤ n ∧ n ≤ maxInt64 := by
  have hup : ∀ cs : List Char, readUpward 0 cs = .ok n ↔
      ((∀ c ∈ cs, c.isDigit = true) ∧ n = Date.digitsValue cs) ∧ minInt64 ≤ n ∧ n ≤ maxInt64 :=
    fun cs => by
      have hread : readUpward ((0 : Nat) : Int) cs = .ok n ↔ _ := readUpward_eq_ok_iff (by decide)
      rw [appendDigits_zero, Int.natCast_zero] at hread
      rw [hread, and_assoc]
      refine and_congr_right fun _ => and_congr_right fun hn => (and_iff_right ?_).symm
      rw [hn, minInt64]
      omega
  have hdown : ∀ cs : List Char, readDownward 0 cs = .ok n ↔
      ((∀ c ∈ cs, c.isDigit = true) ∧ n = -(Date.digitsValue cs : Int)) ∧
        minInt64 ≤ n ∧ n ≤ maxInt64 :=
    fun cs => by
      have hread : readDownward (-((0 : Nat) : Int)) cs = .ok n ↔ _ :=
        readDownward_eq_ok_iff (by decide)
      rw [appendDigits_zero, Int.natCast_zero, Int.neg_zero] at hread
      rw [hread, and_assoc]
      refine and_congr_right fun _ => and_congr_right fun hn => (and_iff_left ?_).symm
      rw [hn, maxInt64]
      omega
  unfold readInt64
  split
  · rename_i htext
    rw [htext, writesInt_bare_iff (by simp) (by simp)]
    simp
  · rename_i htext
    rw [htext, writesInt_plus_iff]
    simp
  · rename_i htext
    rw [htext, writesInt_minus_iff]
    simp
  · rename_i digits hne htext
    rw [htext, writesInt_plus_iff, hup, and_iff_right hne]
  · rename_i digits hne htext
    rw [htext, writesInt_minus_iff, hdown, and_iff_right hne]
  · rename_i hnil _ _ hplus hminus
    rw [writesInt_bare_iff hplus hminus, hup, and_iff_right hnil]

end FuturesChains
