import FuturesChains.Proofs.Calendar.EqualSteps
import FuturesChains.Proofs.Calendar.TimestampGrammar
import FuturesChains.Proofs.Config.ChainList
import FuturesChains.Proofs.Number.WrittenNumber

/-!
# The texts that are accepted

`Config.Accepted` says of each variable which texts it may have, in terms of what is written in them
and not of how they are read. The lemmas before it say so of each reader: it succeeds on these texts
and no others. An interval and a number of days are positive counts in range; the days are in range
as far as the calendar reaches from a start that is written, so this is the one condition that looks
at two variables.
-/

namespace FuturesChains

open Text

/-- A currency is read from its name, up to white space at the ends and the case of letters. -/
theorem Currency.read_eq_ok_iff {text : String} {currency : Currency} :
    Currency.read text = .ok currency ↔ upper (trim text) = currency.name := by
  refine readCode_eq_ok_iff Currency.mem_all (fun currency => ?_) (fun {a b} => ?_)
  · cases currency <;> decide
  · cases a <;> cases b <;> decide

theorem Span.exists_ofSeconds?_iff {n : Int} : (∃ span, ofSeconds? n = some span) ↔
    -maxMilliseconds ≤ n * 1000 ∧ n * 1000 ≤ maxMilliseconds := by
  simp [ofSeconds?]

/-- The calendar reaches a span of some seconds from an instant if it has the second at its end. -/
theorem Instant.exists_add?_iff {t : Instant} {span : Span} (hspan : 0 < span.seconds) :
    (∃ finish, t.add? span = some finish) ↔ t.second + span.seconds ≤ lastSecond := by
  have hground := t.ground_bounds
  have hfirst := t.first_le_ground
  rw [← Option.isSome_iff_exists, add?_of_span (by rwa [Duration.span_coe]),
    isSome_ofNanos?_iff]
  simp only [nanosPerSecond] at *
  omega

namespace Config

variable {text : String} {n : Int}

theorem mapError_ok {ε α : Type} {f : ε → ConfigCause} {a : α} :
    (Except.ok a).mapError f = .ok a := rfl

theorem mapError_eq_ok {ε α : Type} {result : Except ε α} {f : ε → ConfigCause} {a : α} :
    result.mapError f = .ok a ↔ result = .ok a := by
  cases result with
  | error error => exact iff_of_false nofun nofun
  | ok b => rw [mapError_ok, Except.ok.injEq, Except.ok.injEq]

/-- A count is read if it is a positive number that fits in 64 bits. -/
theorem readPositive_eq_ok_iff : readPositive text = .ok n ↔
    WritesInt (trimmed text.toList) n ∧ 0 < n ∧ n ≤ maxInt64 := by
  have hread : ∀ m, readInt64 (trim text) = .ok m ↔
      WritesInt (trimmed text.toList) m ∧ minInt64 ≤ m ∧ m ≤ maxInt64 := fun m => by
    rw [readInt64_eq_ok_iff, trim, String.toList_ofList]
  have hlow : minInt64 ≤ 0 := by decide
  constructor
  · intro h
    obtain ⟨hpositive, hmax⟩ := readPositive_bounds h
    unfold readPositive at h
    split at h
    · cases h
    · rename_i value hvalue
      obtain ⟨hwrites, -⟩ := (hread value).1 hvalue
      split at h
      · cases h
        exact ⟨hwrites, hpositive, hmax⟩
      · cases h
  · rintro ⟨hwrites, hpositive, hmax⟩
    rw [readPositive, (hread n).2 ⟨hwrites, by omega, hmax⟩]
    exact if_pos hpositive

/-- An interval is read if it is a positive number of minutes whose milliseconds fit in 64 bits. -/
theorem exists_readInterval_iff : (∃ span, readInterval text = .ok span) ↔
    ∃ minutes, WritesInt (trimmed text.toList) minutes ∧ 0 < minutes ∧
      minutes * 60 * 1000 ≤ maxInt64 := by
  have hrange : ∀ minutes : Int, 0 < minutes →
      ((∃ span, Span.ofMinutes? minutes = some span) ↔ minutes * 60 * 1000 ≤ maxInt64) := by
    intro minutes hpositive
    rw [Span.ofMinutes?, Span.exists_ofSeconds?_iff]
    simp only [Span.maxMilliseconds, maxInt64]
    omega
  constructor
  · rintro ⟨span, h⟩
    simp only [readInterval] at h
    cases hcount : readPositive text with
    | error cause =>
        rw [hcount] at h
        cases h
    | ok minutes =>
        obtain ⟨hwrites, hpositive, -⟩ := readPositive_eq_ok_iff.1 hcount
        refine ⟨minutes, hwrites, hpositive, (hrange minutes hpositive).1 ?_⟩
        simp only [hcount, bind, Except.bind] at h
        split at h
        · rename_i found hfound
          exact ⟨found, hfound⟩
        · cases h
  · rintro ⟨minutes, hwrites, hpositive, hmax⟩
    obtain ⟨span, hspan⟩ := (hrange minutes hpositive).2 hmax
    have hcount := readPositive_eq_ok_iff.2 ⟨hwrites, hpositive, by omega⟩
    exact ⟨span, by simp only [readInterval, hcount, hspan, bind, Except.bind]⟩

/-- A mode is read from its name in either case. -/
theorem exists_readMode_iff : (∃ mode, readMode text = .ok mode) ↔
    lower (trim text) = "backtest" ∨ lower (trim text) = "live" := by
  simp only [readMode]
  split
  · rename_i hbacktest
    exact iff_of_true ⟨_, rfl⟩ (.inl hbacktest)
  · rename_i hbacktest
    split
    · rename_i hlive
      exact iff_of_true ⟨_, rfl⟩ (.inr hlive)
    · rename_i hlive
      exact iff_of_false nofun fun h => h.elim hbacktest hlive

theorem readStart_eq_ok_iff {start : Instant} : readStart text = .ok start ↔
    Timestamp.WritesTimestamp (trimmed text.toList) start := by
  rw [readStart, mapError_eq_ok, Timestamp.read_eq_ok_iff, trim, String.toList_ofList]

/-- A backtest of some days has an end if the calendar reaches it. -/
theorem exists_finishOf_iff {start : Instant} {days : Int} (hdays : 0 < days) :
    (∃ finish, finishOf start days = .ok finish) ↔
      start.second + days * secondsPerDay ≤ Instant.lastSecond := by
  have hfirst := start.inRange.1
  simp only [Instant.firstSecond, Instant.lastSecond, Date.firstDay, Date.lastDay,
    secondsPerDay] at *
  constructor
  · rintro ⟨finish, h⟩
    obtain ⟨span, hspan, hadd⟩ := ofDays?_of_finishOf h
    have hseconds := Span.seconds_ofSeconds? hspan
    have hreach := (Instant.exists_add?_iff (by omega)).1 ⟨finish, hadd⟩
    rw [hseconds] at hreach
    exact hreach
  · intro hreach
    obtain ⟨span, hspan⟩ : ∃ span, Span.ofDays? days = some span := by
      rw [Span.ofDays?, Span.exists_ofSeconds?_iff, Span.maxMilliseconds]
      omega
    have hseconds := Span.seconds_ofSeconds? hspan
    obtain ⟨finish, hadd⟩ : ∃ finish, start.add? span = some finish :=
      (Instant.exists_add?_iff (by omega)).2 (by rw [hseconds]; exact hreach)
    exact ⟨finish, by simp only [finishOf, hspan, Option.bind_some, hadd]⟩

/-- The text of a variable is one of those that it may have. -/
def Accepted (env : Environment) : Variable → Prop
  | .chainMarket => ∃ venue : Exchange, upper (trim (env.text .chainMarket)) = venue.name
  | .chainRoots =>
    worded ((env.text .chainRoots).toList.splitOn ',') ≠ [] ∧
      ∀ item ∈ worded ((env.text .chainRoots).toList.splitOn ','), '@' ∈ item →
        ∃ root code, ∃ venue : Exchange, item = root ++ '@' :: code ∧ '@' ∉ root ∧
          upper (String.ofList (trimmed code)) = venue.name
  | .refreshInterval =>
    ∃ minutes, WritesInt (trimmed (env.text .refreshInterval).toList) minutes ∧ 0 < minutes ∧
      minutes * 60 * 1000 ≤ maxInt64
  | .chainMode =>
    lower (trim (env.text .chainMode)) = "backtest" ∨ lower (trim (env.text .chainMode)) = "live"
  | .backtestStart =>
    ∃ start, Timestamp.WritesTimestamp (trimmed (env.text .backtestStart).toList) start
  | .backtestDays =>
    ∃ days, WritesInt (trimmed (env.text .backtestDays).toList) days ∧ 0 < days ∧
      days ≤ maxInt64 ∧
      ∀ start, Timestamp.WritesTimestamp (trimmed (env.text .backtestStart).toList) start →
        start.second + days * secondsPerDay ≤ Instant.lastSecond
  | .accountCurrency =>
    ∃ currency : Currency, upper (trim (env.text .accountCurrency)) = currency.name

end Config

end FuturesChains
