import FuturesChains.Proofs.Calendar.TimestampYear
import FuturesChains.Proofs.Number.WrittenNumber
import FuturesChains.Proofs.Text.Utf8

/-!
# The grammar of timestamps

`WritesTimestamp` is the grammar of a timestamp, with a relation for each of its parts and what they
say: a date, the letter `T` or a space, a time of day with optional decimal places, and a zone.
`read_eq_ok_iff` says that a text is read exactly if it is of this form, and as the instant that it
writes. The reader goes through the bytes of a text and the grammar through its characters: all of
them take one byte, but for the minus sign that may stand before an offset.
-/

namespace FuturesChains

open Text

namespace Timestamp

/-- A number is written with exactly as many digits. -/
structure WritesDigits (count : Nat) (digits : List Char) (n : Nat) : Prop where
  length : digits.length = count
  isDigit : ∀ c ∈ digits, c.isDigit = true
  value : Date.digitsValue digits = n

/-- A date is written as a year of four digits, a month and a day of two, and hyphens between. -/
inductive WritesDate : List Char → Date → Prop
  | intro {yearText monthText dayText : List Char} {year month day : Nat} {date : Date}
      (hyear : WritesDigits 4 yearText year) (hmonth : WritesDigits 2 monthText month)
      (hday : WritesDigits 2 dayText day) (hdate : date.civil = ⟨year, month, day⟩) :
      WritesDate (yearText ++ '-' :: (monthText ++ '-' :: dayText)) date

/-- The decimal places of a second are written behind a point, one of them at least; the first nine
are its nanoseconds. There may be none of this. -/
inductive WritesNanos : List Char → Nat → Prop
  | none : WritesNanos [] 0
  | places {digits : List Char} (hne : digits ≠ []) (hdigits : ∀ c ∈ digits, c.isDigit = true) :
      WritesNanos ('.' :: digits) (Date.digitsValue ((digits ++ List.replicate 9 '0').take 9))

/-- A time of day is written as an hour, a minute and a second of two digits, colons between, and
decimal places. Second 60 is the leap second of second 59. -/
inductive WritesTime : List Char → Nat → Nat → Prop
  | intro {hourText minuteText secondText placesText : List Char} {hour minute second nano : Nat}
      (hhour : WritesDigits 2 hourText hour) (hminute : WritesDigits 2 minuteText minute)
      (hsecond : WritesDigits 2 secondText second) (hnano : WritesNanos placesText nano)
      (hrange : hour < 24 ∧ minute < 60 ∧ second ≤ 60) :
      WritesTime (hourText ++ ':' :: (minuteText ++ ':' :: (secondText ++ placesText)))
        (hour * 3600 + minute * 60 + min second 59)
        (nano + second / 60 * Instant.nanosPerSecond)

/-- The signs of an offset, of one that leads west of Greenwich or of one that does not. -/
def signs (west : Bool) : List Char := if west then ['-', '\u2212'] else ['+']

/-- A zone is the letter `Z`, or hours and minutes behind a sign: seconds east of Greenwich. -/
inductive WritesZone : List Char → Int → Prop
  | utc {c : Char} (hc : c ∈ ['Z', 'z']) : WritesZone [c] 0
  | offset {west : Bool} {sign : Char} {hoursText minutesText : List Char} {hours minutes : Nat}
      (hsign : sign ∈ signs west) (hhours : WritesDigits 2 hoursText hours)
      (hminutes : WritesDigits 2 minutesText minutes) (hlt : minutes < 60) :
      WritesZone (sign :: (hoursText ++ ':' :: minutesText))
        (if west then -(hours * 3600 + minutes * 60) else hours * 3600 + minutes * 60)

/-- A timestamp is written as a date, the letter `T` or a space, a time of day and a zone less than
a day away. It is the instant that has this date and time of day in the zone. -/
inductive WritesTimestamp : List Char → Instant → Prop
  | intro {dateText timeText zoneText : List Char} {mark : Char} {date : Date} {second nano : Nat}
      {offset : Int} {t : Instant} (hdate : WritesDate dateText date)
      (hmark : mark ∈ ['t', 'T', ' ']) (htime : WritesTime timeText second nano)
      (hzone : WritesZone zoneText offset)
      (hoffset : -secondsPerDay < offset ∧ offset < secondsPerDay)
      (hsecond : t.second = date.day * secondsPerDay + second - offset) (hnano : t.nano = nano) :
      WritesTimestamp (dateText ++ mark :: (timeText ++ zoneText)) t

/-- An ASCII character is its own byte. -/
theorem utf8_ascii {c : Char} (h : c.toNat < 128) : utf8 [c] = [byte c] := by
  have hsize : c.utf8Size = 1 := by
    rw [Char.utf8Size_eq_one_iff, UInt32.le_iff_toNat_le]
    exact Nat.le_of_lt_succ h
  rw [utf8, List.flatMap_singleton, String.utf8EncodeChar_eq_singleton hsize]
  rfl

theorem utf8_cons_ascii {c : Char} (h : c.toNat < 128) (cs : List Char) :
    utf8 (c :: cs) = byte c :: utf8 cs := by
  rw [utf8_cons, utf8_ascii h, List.singleton_append]

/-- A mark stands between the bytes of what is before it and of what is behind it. -/
theorem utf8_append_mark {c : Char} (h : c.toNat < 128) (left right : List Char)
    (rest : List UInt8) :
    utf8 (left ++ c :: right) ++ rest = utf8 left ++ byte c :: (utf8 right ++ rest) := by
  rw [utf8_append, utf8_cons_ascii h, List.append_assoc, List.cons_append]

theorem toNat_byte {c : Char} (h : c.toNat < 128) : (byte c).toNat = c.toNat := by
  rw [byte, Nat.toUInt8, UInt8.toNat_ofNat', Nat.mod_eq_of_lt (by omega)]

theorem toNat_lt_of_mem {marks : List Char} (hmarks : marks.all (·.toNat < 128) = true) {c : Char}
    (hc : c ∈ marks) : c.toNat < 128 :=
  of_decide_eq_true (List.all_eq_true.1 hmarks c hc)

theorem toNat_lt_of_isDigit {c : Char} (h : c.isDigit = true) : c.toNat < 128 := by
  have hbounds : 48 ≤ c.toNat ∧ c.toNat ≤ 57 := Char.isDigit_iff_toNat.1 h
  omega

/-- The byte of a digit has its value. -/
theorem digit?_byte {c : Char} (h : c.isDigit = true) : digit? (byte c) = some (c.toNat - 48) := by
  have hbounds : 48 ≤ c.toNat ∧ c.toNat ≤ 57 := Char.isDigit_iff_toNat.1 h
  have hbyte := toNat_byte (toNat_lt_of_isDigit h)
  have hrange : byte '0' ≤ byte c ∧ byte c ≤ byte '9' := by
    rw [UInt8.le_iff_toNat_le, UInt8.le_iff_toNat_le, hbyte]
    exact hbounds
  rw [digit?, if_pos (by simpa using hrange), hbyte]

/-- A byte that has the value of a digit is the byte of one. -/
theorem exists_isDigit {b : UInt8} {d : Nat} (h : digit? b = some d) :
    ∃ c : Char, c.isDigit = true ∧ b = byte c ∧ d = c.toNat - 48 := by
  have hlt := digit?_lt h
  have hchars : ∀ d < 10, (Nat.digitChar d).isDigit = true ∧
      (Nat.digitChar d).toNat = d + 48 := by decide
  obtain ⟨hdigit, hnumber⟩ := hchars d hlt
  unfold digit? at h
  split at h
  · rename_i hrange
    have hlow : 48 ≤ b.toNat := by
      simp only [Bool.and_eq_true, decide_eq_true_eq] at hrange
      exact UInt8.le_iff_toNat_le.1 hrange.1
    have hvalue : b.toNat - 48 = d := Option.some.inj h
    refine ⟨Nat.digitChar d, hdigit, UInt8.toNat_inj.1 ?_, by omega⟩
    rw [toNat_byte (toNat_lt_of_isDigit hdigit), hnumber]
    omega
  · cases h

variable {value count n : Nat} {bytes rest : List UInt8} {cs digits : List Char}

/-- Digits are read as the number that they write. -/
theorem readDigits_utf8 (hdigits : ∀ c ∈ digits, c.isDigit = true) :
    readDigits value digits.length (utf8 digits ++ rest) =
      .ok (appendDigits value digits, rest) := by
  induction digits generalizing value with
  | nil => rfl
  | cons c digits ih =>
      obtain ⟨hc, hdigits⟩ := List.forall_mem_cons.1 hdigits
      rw [utf8_cons_ascii (toNat_lt_of_isDigit hc), List.cons_append, List.length_cons, readDigits,
        digit?_byte hc, appendDigits_cons]
      exact ih hdigits

/-- Where digits are read, there are as many as are asked for. -/
theorem exists_of_readDigits (h : readDigits value count bytes = .ok (n, rest)) :
    ∃ digits : List Char, digits.length = count ∧ (∀ c ∈ digits, c.isDigit = true) ∧
      appendDigits value digits = n ∧ bytes = utf8 digits ++ rest := by
  induction count generalizing value bytes with
  | zero =>
      obtain ⟨rfl, rfl⟩ : value = n ∧ bytes = rest := by simpa [readDigits] using h
      exact ⟨[], rfl, List.forall_mem_nil _, rfl, rfl⟩
  | succ count ih =>
      cases bytes with
      | nil => cases h
      | cons b bytes =>
          unfold readDigits at h
          split at h
          · cases h
          · rename_i d hd
            obtain ⟨c, hc, rfl, rfl⟩ := exists_isDigit hd
            obtain ⟨digits, rfl, hdigits, hvalue, rfl⟩ := ih h
            refine ⟨c :: digits, rfl, List.forall_mem_cons.2 ⟨hc, hdigits⟩, ?_, ?_⟩
            · rw [appendDigits_cons, hvalue]
            · rw [utf8_cons_ascii (toNat_lt_of_isDigit hc), List.cons_append]

theorem WritesDigits.read (h : WritesDigits count digits n) :
    readDigits 0 count (utf8 digits ++ rest) = .ok (n, rest) := by
  obtain ⟨rfl, hdigits, rfl⟩ := h
  exact readDigits_utf8 hdigits

/-- A number is less than a power of ten that has more digits. -/
theorem WritesDigits.lt (h : WritesDigits count digits n) : n < tenTo count := by
  have hread : readDigits 0 count (utf8 digits ++ []) = .ok (n, []) := h.read
  have hlt := readDigits_lt hread
  omega

theorem exists_writesDigits (h : readDigits 0 count bytes = .ok (n, rest)) :
    ∃ digits, WritesDigits count digits n ∧ bytes = utf8 digits ++ rest := by
  obtain ⟨digits, hlength, hdigits, hvalue, hbytes⟩ := exists_of_readDigits h
  exact ⟨digits, ⟨hlength, hdigits, hvalue⟩, hbytes⟩

theorem readMark_byte {marks : List Char} {c : Char} (hc : c ∈ marks) :
    readMark marks (byte c :: rest) = .ok rest := by
  rw [readMark, if_pos (List.any_eq_true.2 ⟨c, hc, by simp⟩)]

theorem exists_of_readMark {marks : List Char} (h : readMark marks bytes = .ok rest) :
    ∃ c ∈ marks, bytes = byte c :: rest := by
  cases bytes with
  | nil => cases h
  | cons b bytes =>
      rw [readMark] at h
      split at h
      · rename_i hany
        obtain rfl : bytes = rest := by simpa using h
        obtain ⟨c, hc, hb⟩ := List.any_eq_true.1 hany
        exact ⟨c, hc, by rw [beq_iff_eq.1 hb]⟩
      · cases h

/-- A single mark is the one that is read. -/
theorem eq_of_readMark {c : Char} (h : readMark [c] bytes = .ok rest) : bytes = byte c :: rest := by
  obtain ⟨found, hfound, hbytes⟩ := exists_of_readMark h
  rw [List.mem_singleton.1 hfound] at hbytes
  exact hbytes

/-- What is written as a date is read as this date. -/
theorem WritesDate.read {date : Date} (h : WritesDate cs date) :
    readDate (utf8 cs ++ rest) = .ok (date, rest) := by
  cases h with
  | intro hyear hmonth hday hdate =>
      rw [utf8_append_mark (by decide), utf8_append_mark (by decide)]
      simp only [readDate, bind_eq_ok]
      refine ⟨_, hyear.read, _, readMark_byte (by decide), _, hmonth.read, _,
        readMark_byte (by decide), _, hday.read, ?_⟩
      rw [← hdate, Date.ofCivil?_civil]

/-- What is read as a date is written as this date. -/
theorem exists_writesDate {date : Date} (h : readDate bytes = .ok (date, rest)) :
    ∃ cs, WritesDate cs date ∧ bytes = utf8 cs ++ rest := by
  simp only [readDate, bind_eq_ok] at h
  obtain ⟨⟨year, _⟩, hreadYear, _, hfirst, ⟨month, _⟩, hreadMonth, _, hsecond, ⟨day, _⟩, hreadDay,
    h⟩ := h
  obtain ⟨yearText, hyear, rfl⟩ := exists_writesDigits hreadYear
  obtain rfl := eq_of_readMark hfirst
  obtain ⟨monthText, hmonth, rfl⟩ := exists_writesDigits hreadMonth
  obtain rfl := eq_of_readMark hsecond
  obtain ⟨dayText, hday, rfl⟩ := exists_writesDigits hreadDay
  split at h
  · rename_i found hfound
    obtain ⟨rfl, rfl⟩ : found = date ∧ _ = rest := by simpa using h
    refine ⟨_, .intro hyear hmonth hday (Date.civil_of_ofCivil? hfound), ?_⟩
    rw [utf8_append_mark (by decide), utf8_append_mark (by decide)]
  · cases h

/-- No decimal places go on in some bytes. -/
def Stops (bytes : List UInt8) : Prop := ∀ b ∈ bytes.head?, digit? b = none ∧ b ≠ byte '.'

/-- The leading digits end where no decimal places go on. -/
theorem leadingDigits_utf8 (hdigits : ∀ c ∈ digits, c.isDigit = true) (hrest : Stops rest) :
    leadingDigits (utf8 digits ++ rest) = (digits.map (·.toNat - 48), rest) := by
  induction digits with
  | nil =>
      cases rest with
      | nil => rfl
      | cons b rest =>
          obtain ⟨hdigit, -⟩ := hrest b rfl
          simp [utf8_nil, leadingDigits, hdigit]
  | cons c digits ih =>
      obtain ⟨hc, hdigits⟩ := List.forall_mem_cons.1 hdigits
      rw [utf8_cons_ascii (toNat_lt_of_isDigit hc), List.cons_append, leadingDigits,
        digit?_byte hc, ih hdigits]
      rfl

theorem exists_of_leadingDigits {values : List Nat} (h : leadingDigits bytes = (values, rest)) :
    ∃ digits : List Char, (∀ c ∈ digits, c.isDigit = true) ∧ values = digits.map (·.toNat - 48) ∧
      bytes = utf8 digits ++ rest := by
  induction bytes generalizing values with
  | nil =>
      cases h
      exact ⟨[], List.forall_mem_nil _, rfl, rfl⟩
  | cons b bytes ih =>
      unfold leadingDigits at h
      split at h
      · cases h
        exact ⟨[], List.forall_mem_nil _, rfl, rfl⟩
      · rename_i d hd
        cases h
        obtain ⟨c, hc, rfl, rfl⟩ := exists_isDigit hd
        obtain ⟨digits, hdigits, hvalues, hbytes⟩ := ih rfl
        refine ⟨c :: digits, List.forall_mem_cons.2 ⟨hc, hdigits⟩, ?_, ?_⟩
        · rw [hvalues, List.map_cons]
        · rw [utf8_cons_ascii (toNat_lt_of_isDigit hc), List.cons_append, ← hbytes]

/-- Nine places are kept, and filled up with zeros where there are fewer. -/
theorem kept_places (digits : List Char) :
    ((digits.map (·.toNat - 48)).take 9).foldl (fun n d => n * 10 + d) 0 *
        tenTo (9 - ((digits.map (·.toNat - 48)).take 9).length) =
      Date.digitsValue ((digits ++ List.replicate 9 '0').take 9) := by
  rw [List.take_append, List.take_replicate, digitsValue_append_zeros, ← List.map_take,
    List.foldl_map, List.length_map, List.length_take]
  congr 2
  omega

/-- Decimal places are read where there is a digit, up to the last digit in a row. -/
theorem readPlaces_eq_ok_iff : readPlaces bytes = .ok (n, rest) ↔
    ∃ values, values ≠ [] ∧ leadingDigits bytes = (values, rest) ∧
      (values.take 9).foldl (fun n d => n * 10 + d) 0 * tenTo (9 - (values.take 9).length) = n := by
  cases bytes with
  | nil =>
      refine iff_of_false nofun ?_
      rintro ⟨values, hne, hvalues, -⟩
      cases hvalues
      exact hne rfl
  | cons b bytes =>
      simp only [readPlaces]
      split
      · rename_i left hvalues
        refine iff_of_false nofun ?_
        rintro ⟨values, hne, hvalues', -⟩
        rw [hvalues] at hvalues'
        cases hvalues'
        exact hne rfl
      · rename_i values left hne hvalues
        simp only [hvalues, Except.ok.injEq, Prod.mk.injEq]
        constructor
        · rintro ⟨hn, rfl⟩
          exact ⟨values, hne, ⟨rfl, rfl⟩, hn⟩
        · rintro ⟨_, -, ⟨rfl, rfl⟩, hn⟩
          exact ⟨hn, rfl⟩

theorem WritesNanos.read (h : WritesNanos cs n) (hrest : Stops rest) :
    readNanos (utf8 cs ++ rest) = .ok (n, rest) := by
  cases h with
  | none =>
      cases rest with
      | nil => rfl
      | cons b rest =>
          obtain ⟨-, hpoint⟩ := hrest b rfl
          rw [utf8_nil, List.nil_append, readNanos, if_neg hpoint]
  | places hne hdigits =>
      rw [utf8_cons_ascii (by decide), List.cons_append, readNanos, if_pos rfl]
      refine readPlaces_eq_ok_iff.2 ⟨_, ?_, leadingDigits_utf8 hdigits hrest, kept_places _⟩
      exact mt List.map_eq_nil_iff.1 hne

theorem exists_writesNanos (h : readNanos bytes = .ok (n, rest)) :
    ∃ cs, WritesNanos cs n ∧ bytes = utf8 cs ++ rest := by
  cases bytes with
  | nil =>
      cases h
      exact ⟨[], .none, rfl⟩
  | cons b bytes =>
      rw [readNanos] at h
      split at h
      · rename_i hpoint
        obtain ⟨values, hne, hvalues, rfl⟩ := readPlaces_eq_ok_iff.1 h
        obtain ⟨digits, hdigits, rfl, rfl⟩ := exists_of_leadingDigits hvalues
        rw [kept_places, hpoint]
        refine ⟨_, .places (mt List.map_eq_nil_iff.2 hne) hdigits, ?_⟩
        rw [utf8_cons_ascii (by decide), List.cons_append]
      · cases h
        exact ⟨[], .none, rfl⟩

/-- The leap second counts on in the second before it. -/
theorem leap_second {base second nano : Nat} (h : second ≤ 60) :
    (if second = 60 then .ok ((base + 59, nano + Instant.nanosPerSecond), rest)
      else .ok ((base + second, nano), rest) : Read (Nat × Nat)) =
      .ok ((base + min second 59, nano + second / 60 * Instant.nanosPerSecond), rest) := by
  split
  · rename_i hleap
    rw [hleap]
    simp
  · rename_i hleap
    rw [Nat.min_eq_left (by omega), Nat.div_eq_of_lt (by omega), Nat.zero_mul, Nat.add_zero]

/-- What is written as a time of day is read as this one. -/
theorem WritesTime.read {second nano : Nat} (h : WritesTime cs second nano) (hrest : Stops rest) :
    readTime (utf8 cs ++ rest) = .ok ((second, nano), rest) := by
  cases h with
  | intro hhour hminute hsecond hnano hrange =>
      rw [utf8_append_mark (by decide), utf8_append_mark (by decide), utf8_append,
        List.append_assoc]
      simp only [readTime, bind_eq_ok]
      refine ⟨_, hhour.read, _, readMark_byte (by decide), _, hminute.read, _,
        readMark_byte (by decide), _, hsecond.read, _, hnano.read hrest, ?_⟩
      simp only
      rw [if_neg (by omega), leap_second hrange.2.2]

/-- What is read as a time of day is written as this one. -/
theorem exists_writesTime {second nano : Nat} (h : readTime bytes = .ok ((second, nano), rest)) :
    ∃ cs, WritesTime cs second nano ∧ bytes = utf8 cs ++ rest := by
  simp only [readTime, bind_eq_ok] at h
  obtain ⟨⟨hour, _⟩, hreadHour, _, hfirst, ⟨minute, _⟩, hreadMinute, _, hlast, ⟨sec, _⟩,
    hreadSecond, ⟨ns, _⟩, hreadNanos, h⟩ := h
  obtain ⟨hourText, hhour, rfl⟩ := exists_writesDigits hreadHour
  obtain rfl := eq_of_readMark hfirst
  obtain ⟨minuteText, hminute, rfl⟩ := exists_writesDigits hreadMinute
  obtain rfl := eq_of_readMark hlast
  obtain ⟨secondText, hsecond, rfl⟩ := exists_writesDigits hreadSecond
  obtain ⟨placesText, hnano, rfl⟩ := exists_writesNanos hreadNanos
  split at h
  · cases h
  · rename_i hrange
    simp only at hrange h
    rw [leap_second (by omega)] at h
    cases h
    refine ⟨_, .intro hhour hminute hsecond hnano (by omega), ?_⟩
    rw [utf8_append_mark (by decide), utf8_append_mark (by decide), utf8_append,
      List.append_assoc]

/-- Two digits of an offset are read if the number is not too large. -/
theorem readOffsetPart_eq_ok_iff {tens : Nat} : readOffsetPart tens bytes = .ok (n, rest) ↔
    readDigits 0 2 bytes = .ok (n, rest) ∧ n < (tens + 1) * 10 := by
  rcases bytes with _ | ⟨first, _ | ⟨second, left⟩⟩
  · simp [readOffsetPart, readDigits]
  · refine iff_of_false (by simp [readOffsetPart]) ?_
    rintro ⟨h, -⟩
    cases hfirst : digit? first <;> simp [readDigits, hfirst] at h
  · cases hfirst : digit? first with
    | none => simp [readOffsetPart, readDigits, hfirst]
    | some a =>
        cases hsecond : digit? second with
        | none => simp [readOffsetPart, readDigits, hfirst, hsecond]
        | some b =>
            have hb := digit?_lt hsecond
            simp only [readOffsetPart, readDigits, hfirst, hsecond, Nat.zero_mul, Nat.zero_add]
            split
            · rename_i htens
              refine (and_iff_left_of_imp fun h => ?_).symm
              cases h
              omega
            · rename_i htens
              refine iff_of_false (by simp) ?_
              rintro ⟨h, hlt⟩
              cases h
              omega

/-- A sign is no letter `Z`, and is read as the direction that it leads to. -/
theorem readSign_utf8 {west : Bool} {sign : Char} (h : sign ∈ signs west) :
    readMark ['Z', 'z'] (utf8 [sign] ++ rest) = .error .invalid ∧
      readSign (utf8 [sign] ++ rest) = .ok (west, rest) := by
  cases west with
  | false =>
      obtain rfl := List.mem_singleton.1 h
      exact ⟨rfl, rfl⟩
  | true =>
      obtain rfl | rfl : sign = '-' ∨ sign = '\u2212' := by simpa [signs] using h
      · exact ⟨rfl, rfl⟩
      · exact ⟨rfl, rfl⟩

theorem exists_of_readSign {west : Bool} (h : readSign bytes = .ok (west, rest)) :
    ∃ sign ∈ signs west, bytes = utf8 [sign] ++ rest := by
  unfold readSign at h
  split at h
  · cases h
  · cases h
    exact ⟨'\u2212', by decide, rfl⟩
  · split at h
    · rename_i hplus
      cases h
      exact ⟨'+', by decide, by rw [hplus, utf8_ascii (by decide), List.singleton_append]⟩
    · split at h
      · rename_i hhyphen
        cases h
        exact ⟨'-', by decide, by rw [hhyphen, utf8_ascii (by decide), List.singleton_append]⟩
      · cases h

/-- What is written as a zone is read as this one. -/
theorem WritesZone.read {offset : Int} (h : WritesZone cs offset) :
    readZone (utf8 cs ++ rest) = .ok (offset, rest) := by
  cases h with
  | utc hc =>
      rw [utf8_ascii (toNat_lt_of_mem (by decide) hc), List.singleton_append, readZone,
        readMark_byte hc]
  | offset hsign hhours hminutes hlt =>
      have hhoursLt := hhours.lt
      rw [utf8_cons, List.append_assoc, utf8_append_mark (by decide), readZone,
        (readSign_utf8 hsign).1]
      simp only [bind_eq_ok]
      exact ⟨_, (readSign_utf8 hsign).2, _, readOffsetPart_eq_ok_iff.2 ⟨hhours.read, hhoursLt⟩, _,
        readMark_byte (by decide), _, readOffsetPart_eq_ok_iff.2 ⟨hminutes.read, hlt⟩, rfl⟩

/-- What is read as a zone is written as this one. -/
theorem exists_writesZone {offset : Int} (h : readZone bytes = .ok (offset, rest)) :
    ∃ cs, WritesZone cs offset ∧ bytes = utf8 cs ++ rest := by
  unfold readZone at h
  split at h
  · rename_i left hmark
    cases h
    obtain ⟨c, hc, rfl⟩ := exists_of_readMark hmark
    have hascii := toNat_lt_of_mem (by decide) hc
    exact ⟨[c], .utc hc, by rw [utf8_ascii hascii, List.singleton_append]⟩
  · simp only [bind_eq_ok] at h
    obtain ⟨⟨west, _⟩, hreadSign, ⟨hours, _⟩, hreadHours, _, hmark, ⟨minutes, _⟩, hreadMinutes,
      h⟩ := h
    obtain ⟨hreadHours, -⟩ := readOffsetPart_eq_ok_iff.1 hreadHours
    obtain ⟨hreadMinutes, hlt⟩ := readOffsetPart_eq_ok_iff.1 hreadMinutes
    obtain ⟨sign, hsign, rfl⟩ := exists_of_readSign hreadSign
    obtain ⟨hoursText, hhours, rfl⟩ := exists_writesDigits hreadHours
    obtain rfl := eq_of_readMark hmark
    obtain ⟨minutesText, hminutes, rfl⟩ := exists_writesDigits hreadMinutes
    cases h
    refine ⟨_, .offset hsign hhours hminutes hlt, ?_⟩
    rw [utf8_cons sign (_ ++ _), List.append_assoc, utf8_append_mark (by decide)]

/-- No decimal places go on behind a character that is neither a digit nor a point. -/
theorem stops_utf8 {c : Char} (h : Stops (utf8 [c])) (cs : List Char) :
    Stops (utf8 (c :: cs) ++ rest) := by
  have hne : utf8 [c] ≠ [] := List.ne_nil_of_length_pos (length_le_length_utf8 [c])
  obtain ⟨first, more, hbytes⟩ := List.exists_cons_of_ne_nil hne
  intro b hb
  rw [utf8_cons, List.append_assoc, hbytes] at hb
  exact h b (by rwa [hbytes])

/-- No decimal places go on in a zone. -/
theorem WritesZone.stops {offset : Int} (h : WritesZone cs offset) : Stops (utf8 cs ++ rest) := by
  cases h with
  | @utc c hc =>
      obtain rfl | rfl : c = 'Z' ∨ c = 'z' := by simpa using hc
      all_goals
        refine stops_utf8 (fun b hb => ?_) _
        cases hb
        decide
  | @offset west sign _ _ _ _ hsign =>
      obtain rfl | rfl | rfl : sign = '+' ∨ sign = '-' ∨ sign = '\u2212' := by
        cases west <;> simp_all [signs]
      all_goals
        refine stops_utf8 (fun b hb => ?_) _
        cases hb
        decide

theorem WritesDate.length {date : Date} (h : WritesDate cs date) : cs.length = 10 := by
  cases h with
  | intro hyear hmonth hday =>
      simp only [List.length_append, List.length_cons, hyear.length, hmonth.length, hday.length]

theorem WritesTime.le_length {second nano : Nat} (h : WritesTime cs second nano) :
    8 ≤ cs.length := by
  cases h with
  | intro hhour hminute hsecond =>
      simp only [List.length_append, List.length_cons, hhour.length, hminute.length,
        hsecond.length]
      omega

/-- The bytes of a date, the mark behind it, a time of day and a zone. -/
theorem utf8_parts {mark : Char} (hmark : mark ∈ ['t', 'T', ' '])
    (dateText timeText zoneText : List Char) :
    utf8 (dateText ++ mark :: (timeText ++ zoneText)) =
      utf8 dateText ++ byte mark :: (utf8 timeText ++ (utf8 zoneText ++ [])) := by
  rw [← List.append_nil (utf8 (dateText ++ _)),
    utf8_append_mark (toNat_lt_of_mem (by decide) hmark), utf8_append, List.append_assoc]

/-- What is read as a timestamp is written as this instant. -/
theorem writesTimestamp_of_read {text : String} {t : Instant} (h : read text = .ok t) :
    WritesTimestamp text.toList t := by
  simp only [read] at h
  split at h
  · cases h
  · simp only [bind_eq_ok] at h
    obtain ⟨⟨date, _⟩, hreadDate, _, hreadMark, ⟨⟨second, nano⟩, _⟩, hreadTime, ⟨offset, left⟩,
      hreadZone, h⟩ := h
    obtain ⟨dateText, hdate, hbytes⟩ := exists_writesDate hreadDate
    obtain ⟨mark, hmark, rfl⟩ := exists_of_readMark hreadMark
    obtain ⟨timeText, htime, rfl⟩ := exists_writesTime hreadTime
    obtain ⟨zoneText, hzone, rfl⟩ := exists_writesZone hreadZone
    split at h
    · cases h
    · rename_i hleft
      obtain rfl : left = [] := Decidable.not_not.1 hleft
      split at h
      · cases h
      · rename_i hoffset
        split at h
        · rename_i found hfound
          obtain rfl : found = t := by simpa using h
          obtain ⟨hsecond, hnano⟩ := Instant.ofParts?_eq_some_iff.1 hfound
          rw [← utf8_parts hmark] at hbytes
          rw [toList_toUTF8_eq_iff.1 hbytes]
          exact .intro hdate hmark htime hzone (by omega) hsecond hnano
        · cases h

/-- The texts that are read are the timestamps, as the instants that they write. -/
theorem read_eq_ok_iff {text : String} {t : Instant} :
    read text = .ok t ↔ WritesTimestamp text.toList t := by
  refine ⟨writesTimestamp_of_read, fun h => ?_⟩
  generalize htext : text.toList = cs at h
  cases h with
  | @intro dateText timeText zoneText mark date second nano offset _ hdate hmark htime hzone
      hoffset hsecond hnano =>
      rw [← toList_toUTF8_eq_iff] at htext
      have hlength := length_le_length_utf8 (dateText ++ mark :: (timeText ++ zoneText))
      have htimeLength := htime.le_length
      rw [List.length_append, List.length_cons, List.length_append, hdate.length] at hlength
      simp only [read, htext]
      rw [if_neg (by rw [minLength]; omega), utf8_parts hmark]
      simp only [bind_eq_ok]
      refine ⟨_, hdate.read, _, readMark_byte hmark, _, htime.read hzone.stops, _, hzone.read, ?_⟩
      simp only
      rw [if_neg (by simp), if_neg (by omega), Instant.ofParts?_eq_some_iff.2 ⟨hsecond, hnano⟩]

end Timestamp

end FuturesChains
