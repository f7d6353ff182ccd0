import FuturesChains.Calendar.Timestamp
import FuturesChains.Proofs.Calendar.MonthStart

/-!
# The years that a timestamp can name

A timestamp has four digits for its year, so `second_lt_of_read` bounds the instants that can be
read: the last of them are a day behind the year 9999, in a zone far west. The calendar goes on for
a long time after that.
-/

namespace FuturesChains

open Calendar

/-- A date is before the first day of every later year. -/
theorem Calendar.Civil.dayNumber_lt {c : Civil} (hc : c.Valid) {year : Int} (h : c.year < year) :
    c.dayNumber < (⟨year, 1, 1⟩ : Civil).dayNumber := by
  obtain ⟨-, hmonth, -, hday⟩ := hc
  have hlength := monthLength_le c.year c.month
  have hmarch := marchStart_le (show c.year ≤ year - 1 by omega)
  have hnext := marchStart_succ (c.year - 1)
  rw [Int.sub_add_cancel] at hnext
  simp only [Civil.dayNumber, monthStart]
  rw [if_pos (show 1 ≤ 2 by omega), if_pos (show 1 ≤ 2 by omega)]
  split
  · split at hnext <;> omega
  · omega

namespace Timestamp

/-- A reading in two parts succeeds when both parts do. -/
theorem bind_eq_ok {α β : Type} {x : Except TimestampFault α} {f : α → Except TimestampFault β}
    {b : β} : (x >>= f) = .ok b ↔ ∃ a, x = .ok a ∧ f a = .ok b := by
  cases x <;> simp [bind, Except.bind]

theorem digit?_lt {b : UInt8} {d : Nat} (h : digit? b = some d) : d < 10 := by
  unfold digit? at h
  split at h
  · rename_i hrange
    obtain rfl := Option.some.inj h
    simp only [Bool.and_eq_true, decide_eq_true_eq] at hrange
    have hle : b.toNat ≤ 57 := UInt8.le_iff_toNat_le.1 hrange.2
    omega
  · cases h

/-- With some digits more behind it, a number has grown by no more than they can hold. -/
theorem readDigits_lt {value count n : Nat} {bytes rest : List UInt8}
    (h : readDigits value count bytes = .ok (n, rest)) : n < (value + 1) * tenTo count := by
  induction count generalizing value bytes with
  | zero =>
      simp only [readDigits, Except.ok.injEq, Prod.mk.injEq] at h
      rw [tenTo_zero]
      omega
  | succ count ih =>
      cases bytes with
      | nil => cases h
      | cons b bytes =>
          unfold readDigits at h
          split at h
          · cases h
          · rename_i d hd
            have hd := digit?_lt hd
            calc n < (value * 10 + d + 1) * tenTo count := ih h
              _ ≤ (value + 1) * 10 * tenTo count := Nat.mul_le_mul_right _ (by omega)
              _ = (value + 1) * tenTo (count + 1) := by
                rw [tenTo_succ, Nat.mul_assoc, Nat.mul_comm 10]

/-- A date that is read is before the year 10000. -/
theorem day_lt_of_readDate {date : Date} {bytes rest : List UInt8}
    (h : readDate bytes = .ok (date, rest)) : date.day < (⟨10000, 1, 1⟩ : Civil).dayNumber := by
  simp only [readDate, bind_eq_ok] at h
  obtain ⟨⟨year, _⟩, hyear, _, -, ⟨month, _⟩, -, _, -, ⟨day, _⟩, -, h⟩ := h
  have hyear : year < 10000 := readDigits_lt hyear
  split at h
  · rename_i found hfound
    obtain ⟨rfl, -⟩ : found = date ∧ _ := by simpa using h
    unfold Date.ofCivil? at hfound
    split at hfound
    · rename_i hvalid
      rw [Date.ofDay?_eq_some_iff.1 hfound]
      exact Civil.dayNumber_lt hvalid (by simp only; omega)
    · cases hfound
  · cases h

/-- A time of day that is read is before midnight. -/
theorem second_lt_of_readTime {second nano : Nat} {bytes rest : List UInt8}
    (h : readTime bytes = .ok ((second, nano), rest)) : second < secondsPerDay := by
  simp only [readTime, bind_eq_ok] at h
  obtain ⟨⟨hour, _⟩, -, _, -, ⟨minute, _⟩, -, _, -, ⟨sec, _⟩, -, ⟨ns, _⟩, -, h⟩ := h
  unfold secondsPerDay
  split at h
  · cases h
  · split at h
    · cases h
      omega
    · cases h
      omega

/-- A timestamp that is read is less than a day behind the year 9999, whatever its zone. -/
theorem second_lt_of_read {text : String} {t : Instant} (h : read text = .ok t) :
    t.second < ((⟨10000, 1, 1⟩ : Civil).dayNumber + 1) * secondsPerDay := by
  simp only [read] at h
  split at h
  · cases h
  · simp only [bind_eq_ok] at h
    obtain ⟨⟨date, _⟩, hdate, _, -, ⟨⟨second, nano⟩, _⟩, htime, ⟨offset, _⟩, -, h⟩ := h
    have hday := day_lt_of_readDate hdate
    have hsecond := second_lt_of_readTime htime
    split at h
    · cases h
    · split at h
      · cases h
      · split at h
        · rename_i found hfound
          obtain rfl : found = t := by simpa using h
          rw [(Instant.ofParts?_eq_some_iff.1 hfound).1]
          simp only [secondsPerDay] at *
          omega
        · cases h

end Timestamp

end FuturesChains
