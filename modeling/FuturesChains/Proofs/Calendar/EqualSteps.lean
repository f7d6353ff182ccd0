import FuturesChains.Calendar.Instant

/-!
# Instants in equal steps

A clock that starts at any instant, in a leap second or not, and moves on by equal steps of a second
or more. Forward steps count from the ground of an instant, where a leap second counts as the second
before it: `add?_of_span` says that a step adds to the ground. So as long as the calendar reaches
the last of the steps it reaches all of them (`add?_afterSteps`), the instants on the way are before
the last one (`afterSteps_lt`), and an interval that begins on one of them has passed by another one
when it is as short as the steps in between (`advance_afterSteps_le_iff`).
-/

namespace FuturesChains

/-- A span has its own seconds as a duration. -/
theorem Duration.span_coe (s : Span) : (s : Duration).span = s := by
  obtain ⟨seconds⟩ := s
  simp only [span, Int.mul_tdiv_cancel seconds (show (1000000000 : Int) ≠ 0 by decide)]

/-- A duration of whole seconds has as many nanoseconds at least. -/
theorem Duration.le_nanos_of_span {d : Duration} (hd : 0 < d.span.seconds) :
    1000000000 ≤ d.nanos := by
  have hsplit := d.nanos_eq
  have hsubsecond : -1000000000 < d.subsecond := Int.lt_tmod_of_pos _ (by decide)
  have hnonneg := Duration.parts_nonneg (show 0 ≤ d.nanos by omega)
  omega

namespace Instant

/-- The nanoseconds of an instant from which forward steps count. -/
def ground (t : Instant) : Int := if t.isLeap then t.nanos - nanosPerSecond else t.nanos

theorem ground_of_not_isLeap {t : Instant} (h : t.isLeap = false) : t.ground = t.nanos := by
  simp [ground, h]

/-- The ground of an instant lies in its second. -/
theorem ground_bounds (t : Instant) :
    t.second * nanosPerSecond ≤ t.ground ∧ t.ground < (t.second + 1) * nanosPerSecond := by
  obtain ⟨-, -, hnano, -⟩ := t.inRange
  unfold ground
  split
  · rename_i hleap
    have hleap := of_decide_eq_true hleap
    simp only [nanos, nanosPerSecond] at *
    omega
  · rename_i hleap
    have hleap : t.nano < nanosPerSecond := by simpa [isLeap] using hleap
    simp only [nanos, nanosPerSecond] at *
    omega

theorem first_le_ground (t : Instant) : firstSecond * nanosPerSecond ≤ t.ground := by
  have hbounds := t.ground_bounds
  have hsecond := t.inRange.1
  simp only [nanosPerSecond] at *
  omega

/-- A step of a second or more adds to the ground. -/
theorem add?_of_span {t : Instant} {d : Duration} (hd : 0 < d.span.seconds) :
    t.add? d = ofNanos? (t.ground + d.nanos) := by
  unfold add? ground
  split
  · rw [if_pos (.inl hd)]
  · rfl

/-- The nanoseconds beside the seconds of a ground are those of the instant, in a leap second those
that go beyond the second before it. -/
theorem ground_eq (t : Instant) :
    t.ground = t.second * nanosPerSecond + (t.nano % nanosPerSecond : Nat) := by
  obtain ⟨-, -, hnano, -⟩ := t.inRange
  unfold ground
  split
  · rename_i hleap
    have hleap := of_decide_eq_true hleap
    rw [Nat.mod_eq_sub_mod hleap, Nat.mod_eq_of_lt (by omega)]
    simp only [nanos]
    omega
  · rename_i hleap
    have hleap : t.nano < nanosPerSecond := by simpa [isLeap] using hleap
    rw [Nat.mod_eq_of_lt hleap]
    rfl

/-- A step of whole seconds adds to the seconds and keeps the nanoseconds beside them. -/
theorem parts_add?_of_span {t u : Instant} {s : Span} (hs : 0 < s.seconds)
    (h : t.add? s = some u) :
    u.second = t.second + s.seconds ∧ u.nano = t.nano % nanosPerSecond := by
  rw [add?_of_span (by rwa [Duration.span_coe]), ground_eq] at h
  obtain ⟨hnanos, hleap⟩ := of_ofNanos? h
  have hleap := of_decide_eq_false hleap
  have hmod := Nat.mod_lt t.nano (show 0 < nanosPerSecond by decide)
  simp only [nanos, nanosPerSecond] at *
  omega

/-- The calendar has the nanoseconds of its seconds. -/
theorem isSome_ofNanos?_iff {n : Int} : (ofNanos? n).isSome = true ↔
    firstSecond * nanosPerSecond ≤ n ∧ n < (lastSecond + 1) * nanosPerSecond := by
  have hrange : InRange (n / nanosPerSecond) (n % nanosPerSecond).toNat ↔
      firstSecond * nanosPerSecond ≤ n ∧ n < (lastSecond + 1) * nanosPerSecond := by
    simp only [InRange, nanosPerSecond]
    omega
  rw [← hrange]
  unfold ofNanos? ofParts?
  split
  · rename_i h
    exact iff_of_true rfl h
  · rename_i h
    exact iff_of_false (by simp) h

/-- An instant is before another if its ground is a second before. -/
theorem lt_of_ground_add_le {a b : Instant} (h : a.ground + nanosPerSecond ≤ b.ground) :
    a < b := by
  have ha := a.ground_bounds
  have hb := b.ground_bounds
  simp only [nanosPerSecond] at *
  exact lt_iff.2 (.inl (by omega))

/-- Outside leap seconds instants are ordered by their grounds. -/
theorem le_iff_ground_le {a b : Instant} (ha : a.isLeap = false) (hb : b.isLeap = false) :
    a ≤ b ↔ a.ground ≤ b.ground := by
  rw [ground_of_not_isLeap ha, ground_of_not_isLeap hb]
  have ha := of_decide_eq_false ha
  have hb := of_decide_eq_false hb
  rw [le_iff]
  simp only [nanos, nanosPerSecond] at *
  omega

/-- The instant some equal steps later, each of them taken the way a clock moves on. -/
def afterSteps (start : Instant) (d : Duration) : Nat → Instant
  | 0 => start
  | count + 1 => (start.afterSteps d count).advance d

section Steps

variable {start finish : Instant} {d : Duration} {count : Nat}

/-- Where the calendar reaches the last of some steps, it reaches the ones before. -/
theorem exists_ofNanos? (hd : 0 < d.span.seconds)
    (hfinish : ofNanos? (start.ground + count * d.nanos) = some finish) {k : Nat} (hk : k ≤ count) :
    ∃ t, ofNanos? (start.ground + k * d.nanos) = some t := by
  have hnanos := Duration.le_nanos_of_span hd
  obtain ⟨-, hlast⟩ := isSome_ofNanos?_iff.1 (Option.isSome_iff_exists.2 ⟨finish, hfinish⟩)
  have hfirst := first_le_ground start
  have hsteps : (k : Int) * d.nanos ≤ count * d.nanos :=
    Int.mul_le_mul_of_nonneg_right (Int.ofNat_le.2 hk) (by omega)
  have hnonneg : 0 ≤ (k : Int) * d.nanos := Int.mul_nonneg (Int.natCast_nonneg k) (by omega)
  exact Option.isSome_iff_exists.1 (isSome_ofNanos?_iff.2 ⟨by omega, by omega⟩)

/-- A step from an instant on the way leads to the next one, which is no leap second. -/
theorem add?_of_ground (hd : 0 < d.span.seconds)
    (hfinish : ofNanos? (start.ground + count * d.nanos) = some finish) {k : Nat} (hk : k < count)
    {t : Instant} (ht : t.ground = start.ground + k * d.nanos) :
    ∃ next, t.add? d = some next ∧ next.isLeap = false ∧
      next.ground = start.ground + (k + 1 : Nat) * d.nanos := by
  obtain ⟨next, hnext⟩ := exists_ofNanos? hd hfinish hk
  obtain ⟨hnanos, hleap⟩ := of_ofNanos? hnext
  refine ⟨next, ?_, hleap, by rw [ground_of_not_isLeap hleap, hnanos]⟩
  rw [add?_of_span hd, ht, ← hnext, Int.natCast_succ, Int.add_mul, Int.one_mul, Int.add_assoc]

/-- The grounds are in equal steps. -/
theorem ground_afterSteps (hd : 0 < d.span.seconds)
    (hfinish : ofNanos? (start.ground + count * d.nanos) = some finish) {k : Nat} (hk : k ≤ count) :
    (start.afterSteps d k).ground = start.ground + k * d.nanos := by
  induction k with
  | zero => simp [afterSteps]
  | succ k ih =>
      obtain ⟨next, hadd, -, hnext⟩ := add?_of_ground hd hfinish hk (ih (by omega))
      rw [afterSteps, advance_of_add? hadd, hnext]

/-- The calendar reaches every instant on the way; only the start may lie in a leap second. -/
theorem add?_afterSteps (hd : 0 < d.span.seconds)
    (hfinish : ofNanos? (start.ground + count * d.nanos) = some finish) {k : Nat} (hk : k < count) :
    (start.afterSteps d k).add? d = some (start.afterSteps d (k + 1)) ∧
      (start.afterSteps d (k + 1)).isLeap = false := by
  obtain ⟨next, hadd, hleap, -⟩ :=
    add?_of_ground hd hfinish hk (ground_afterSteps hd hfinish (Nat.le_of_lt hk))
  rw [afterSteps, advance_of_add? hadd]
  exact ⟨hadd, hleap⟩

/-- The last step leads to the end. -/
theorem afterSteps_eq_finish (hd : 0 < d.span.seconds)
    (hfinish : ofNanos? (start.ground + count * d.nanos) = some finish) (hcount : 0 < count) :
    start.afterSteps d count = finish := by
  obtain ⟨k, rfl⟩ := Nat.exists_eq_succ_of_ne_zero (Nat.ne_of_gt hcount)
  have hadd := (add?_afterSteps hd hfinish (Nat.lt_succ_self k)).1
  rw [add?_of_span hd, ground_afterSteps hd hfinish (Nat.le_succ k)] at hadd
  refine Option.some.inj (hadd.symm.trans (Eq.trans ?_ hfinish))
  rw [Int.natCast_succ, Int.add_mul, Int.one_mul, Int.add_assoc]

/-- The instants on the way are before the end. -/
theorem afterSteps_lt (hd : 0 < d.span.seconds)
    (hfinish : ofNanos? (start.ground + count * d.nanos) = some finish) {k : Nat} (hk : k < count) :
    start.afterSteps d k < finish := by
  have hnanos := Duration.le_nanos_of_span hd
  obtain ⟨hend, hleap⟩ := of_ofNanos? hfinish
  have hsteps : ((k + 1 : Nat) : Int) * d.nanos ≤ count * d.nanos :=
    Int.mul_le_mul_of_nonneg_right (Int.ofNat_le.2 hk) (by omega)
  rw [Int.natCast_succ, Int.add_mul, Int.one_mul] at hsteps
  apply lt_of_ground_add_le
  rw [ground_afterSteps hd hfinish (Nat.le_of_lt hk), ground_of_not_isLeap hleap, hend]
  simp only [nanosPerSecond]
  omega

/-- An interval that begins on the way has passed some steps later if it is as short as they are,
and else not, even if the calendar does not reach its end. -/
theorem advance_afterSteps_le_iff (hd : 0 < d.span.seconds)
    (hfinish : ofNanos? (start.ground + count * d.nanos) = some finish) {interval : Duration}
    (hinterval : 0 < interval.span.seconds) {i j : Nat} (hij : i < j) (hj : j < count) :
    (start.afterSteps d i).advance interval ≤ start.afterSteps d j ↔
      interval.nanos ≤ (j - i : Nat) * d.nanos := by
  have hground := ground_afterSteps hd hfinish (Nat.le_of_lt (Nat.lt_trans hij hj))
  have hlater := ground_afterSteps hd hfinish (Nat.le_of_lt hj)
  have hbefore := afterSteps_lt hd hfinish hj
  have hleap : (start.afterSteps d j).isLeap = false := by
    obtain ⟨k, rfl⟩ := Nat.exists_eq_succ_of_ne_zero (Nat.ne_of_gt (Nat.zero_lt_of_lt hij))
    exact (add?_afterSteps hd hfinish (Nat.lt_of_succ_lt hj)).2
  have hapart : (j : Int) * d.nanos = i * d.nanos + (j - i : Nat) * d.nanos := by
    rw [← Int.add_mul, ← Int.natCast_add, Nat.add_sub_cancel' (Nat.le_of_lt hij)]
  have hadd := add?_of_span (t := start.afterSteps d i) hinterval
  cases hstamp : ofNanos? ((start.afterSteps d i).ground + interval.nanos) with
  | some stamp =>
      obtain ⟨hnanos, hstampLeap⟩ := of_ofNanos? hstamp
      rw [advance_of_add? (hadd.trans hstamp), le_iff_ground_le hstampLeap hleap,
        ground_of_not_isLeap hstampLeap]
      omega
  | none =>
      -- the stamp is the last instant, which is not before the end
      have hlatest : ¬ latest ≤ start.afterSteps d j := by
        have hle := le_latest finish
        rw [le_iff] at hle ⊢
        rw [lt_iff] at hbefore
        omega
      rw [advance_eq_latest (hadd.trans hstamp)]
      refine iff_of_false hlatest fun hshort => ?_
      have hnanos := Duration.le_nanos_of_span hinterval
      have hfirst := first_le_ground (start.afterSteps d i)
      obtain ⟨-, hlast⟩ := isSome_ofNanos?_iff.1
        (Option.isSome_iff_exists.2 (exists_ofNanos? hd hfinish (Nat.le_of_lt hj)))
      have hsome := isSome_ofNanos?_iff.2
        (show _ ≤ (start.afterSteps d i).ground + interval.nanos ∧ _ from ⟨by omega, by omega⟩)
      rw [hstamp] at hsome
      cases hsome

end Steps

end Instant

end FuturesChains
