import FuturesChains.Proofs.Config.AcceptedTexts

/-!
# The order of the variables

`Config.fault?` is what is wrong with the text of one variable, as far as the variables before it
can be read, and there is nothing wrong exactly with the texts that are accepted
(`Config.fault?_eq_none_iff`). A configuration is read if no variable has a fault, and otherwise the
first variable that has one is blamed: `Config.read_eq_error_iff`. Since a fault depends on no later
variable and default texts have none, a change behind the blamed variable is not noticed, and
without the blamed variable the reading comes farther. `first_fault_blamed` says so, and what the
numbers of a configuration that is read are.
-/

namespace FuturesChains

namespace Variable

/-- The variables that are checked before one. -/
def earlier (v : Variable) : List Variable := all.takeWhile (· ≠ v)

theorem mem_earlier_iff {v w : Variable} : v ∈ w.earlier ↔ v.ctorIdx < w.ctorIdx := by
  cases v <;> cases w <;> decide

theorem mem_earlier_trans {u v w : Variable} (huv : u ∈ v.earlier) (hvw : v ∈ w.earlier) :
    u ∈ w.earlier := by
  rw [mem_earlier_iff] at *
  omega

/-- Two variables are the same, or one of them is checked before the other. -/
theorem earlier_trichotomy (v w : Variable) : v ∈ w.earlier ∨ v = w ∨ w ∈ v.earlier := by
  cases v <;> cases w <;> decide

theorem name_inj {v w : Variable} : v.name = w.name ↔ v = w := by
  cases v <;> cases w <;> decide

end Variable

namespace Environment

/-- An environment in which a variable is not set. -/
def unset (env : Environment) (v : Variable) : Environment :=
  fun name => if name = v.name then none else env name

/-- Two environments give the same text to a variable and those before it. -/
def AgreesUpTo (env other : Environment) (v : Variable) : Prop :=
  ∀ w : Variable, v ∉ w.earlier → other w.name = env w.name

theorem text_unset_self (env : Environment) (v : Variable) :
    (env.unset v).text v = v.defaultText := by
  simp [text, unset]

theorem text_unset_of_ne (env : Environment) {v w : Variable} (h : w ≠ v) :
    (env.unset v).text w = env.text w := by
  simp [text, unset, Variable.name_inj, h]

/-- Environments that agree up to a variable agree up to those before it. -/
theorem AgreesUpTo.of_earlier {env other : Environment} {v w : Variable}
    (h : env.AgreesUpTo other v) (hw : w ∈ v.earlier) : env.AgreesUpTo other w := by
  intro u hu
  refine h u fun hv => hu ?_
  exact Variable.mem_earlier_trans hw hv

/-- A variable that is not set makes no difference to those before it. -/
theorem agreesUpTo_unset (env : Environment) {v w : Variable} (h : w ∈ v.earlier) :
    env.AgreesUpTo (env.unset v) w := by
  intro u hu
  have hne : u ≠ v := by
    rintro rfl
    exact hu h
  simp [unset, Variable.name_inj, hne]

theorem AgreesUpTo.text_eq {env other : Environment} {v w : Variable} (h : env.AgreesUpTo other v)
    (hw : v ∉ w.earlier) : other.text w = env.text w := by
  simp only [text, h w hw]

end Environment

/-- The number that a cause is about. -/
def ConfigCause.number? : ConfigCause → Option Int
  | .notPositive value => some value
  | .minutesOutOfRange minutes => some minutes
  | .daysOutOfRange days _ => some days
  | _ => none

namespace Config

/-- What is wrong with a result. -/
def cause? {α : Type} : Except ConfigCause α → Option ConfigCause
  | .ok _ => none
  | .error cause => some cause

/-- What is wrong with the text of a variable. A variable whose reading takes another one has no
fault of its own where that other one cannot be read. -/
def fault? (env : Environment) : Variable → Option ConfigCause
  | .chainMarket => cause? ((Exchange.read (env.text .chainMarket)).mapError .code)
  | .chainRoots =>
    match Exchange.read (env.text .chainMarket) with
    | .ok market => cause? (readChains market (env.text .chainRoots))
    | .error _ => none
  | .refreshInterval => cause? (readInterval (env.text .refreshInterval))
  | .chainMode => cause? (readMode (env.text .chainMode))
  | .backtestStart => cause? (readStart (env.text .backtestStart))
  | .backtestDays =>
    match readPositive (env.text .backtestDays), readStart (env.text .backtestStart) with
    | .error cause, _ => some cause
    | .ok days, .ok start => cause? (finishOf start days)
    | .ok _, .error _ => none
  | .accountCurrency => cause? ((Currency.read (env.text .accountCurrency)).mapError .code)

/-- The error is the fault of a variable, and no variable before it has one. -/
structure FirstFault (env : Environment) (e : ConfigError) : Prop where
  fault : fault? env e.blamed = some e.cause
  first : ∀ v ∈ e.blamed.earlier, fault? env v = none

variable {env other : Environment} {e e' : ConfigError} {v : Variable}

/-- Only one fault is the first. -/
theorem FirstFault.unique (h : FirstFault env e) (h' : FirstFault env e') : e = e' := by
  obtain ⟨v, cause⟩ := e
  obtain ⟨v', cause'⟩ := e'
  obtain hbefore | heq | hafter := v.earlier_trichotomy v'
  · have hnone := h'.first v hbefore
    rw [h.fault] at hnone
    cases hnone
  · obtain rfl : v = v' := heq
    obtain rfl : cause = cause' := Option.some.inj (h.fault.symm.trans h'.fault)
    rfl
  · have hnone := h.first v' hafter
    rw [h'.fault] at hnone
    cases hnone

theorem blame_error {α : Type} {cause : ConfigCause} :
    blame v (.error cause : Except ConfigCause α) = .error ⟨v, cause⟩ := rfl

theorem blame_ok {α : Type} {a : α} : blame v (.ok a) = .ok a := rfl

/-- A reading in two parts fails in the first of them or in the second. -/
theorem bind_eq_error {ε α β : Type} {result : Except ε α} {f : α → Except ε β} {cause : ε} :
    (result >>= f) = .error cause ↔
      result = .error cause ∨ ∃ a, result = .ok a ∧ f a = .error cause := by
  cases result <;> simp [bind, Except.bind]

/-- A reading ends at a variable whose text is wrong, or at a later one. -/
theorem blame_bind_eq_error {α β : Type} {result : Except ConfigCause α}
    {f : α → Except ConfigError β} :
    (blame v result >>= f) = .error e ↔
      (∃ cause, result = .error cause ∧ e = ⟨v, cause⟩) ∨ ∃ a, result = .ok a ∧ f a = .error e := by
  cases result with
  | error cause => simp [blame_error, bind, Except.bind, eq_comm]
  | ok a => simp [blame_ok, bind, Except.bind]

/-- A configuration that is read has no fault in any variable. -/
theorem fault?_of_read {cfg : Config} (h : read env = .ok cfg) : fault? env v = none := by
  simp only [read, blame_bind_eq_ok, mapError_eq_ok] at h
  obtain ⟨market, hmarket, chains, hchains, interval, hinterval, mode, hmode, start, hstart, days,
    hdays, finish, hfinish, account, haccount, -⟩ := h
  cases v <;> simp [fault?, cause?, mapError_ok, *]

/-- A reading that fails blames the first fault. -/
theorem firstFault_of_read (h : read env = .error e) : FirstFault env e := by
  simp only [read, blame_bind_eq_error, mapError_eq_ok] at h
  obtain ⟨cause, hmarket, rfl⟩ | ⟨market, hmarket, ⟨cause, hchains, rfl⟩ | ⟨chains, hchains,
    ⟨cause, hinterval, rfl⟩ | ⟨interval, hinterval, ⟨cause, hmode, rfl⟩ | ⟨mode, hmode,
    ⟨cause, hstart, rfl⟩ | ⟨start, hstart, ⟨cause, hdays, rfl⟩ | ⟨days, hdays,
    ⟨cause, hfinish, rfl⟩ | ⟨finish, hfinish, ⟨cause, haccount, rfl⟩ |
    ⟨account, haccount, hcfg⟩⟩⟩⟩⟩⟩⟩⟩ := h
  case inr.inr.inr.inr.inr.inr.inr.inr => cases hcfg
  -- the variables in front of the one that failed were read
  all_goals
    constructor
    · simp [fault?, cause?, *]
    · simp [Variable.earlier, Variable.all, fault?, cause?, mapError_ok, *]

theorem read_eq_error_iff : read env = .error e ↔ FirstFault env e := by
  refine ⟨firstFault_of_read, fun hfirst => ?_⟩
  cases hread : read env with
  | ok cfg =>
      have hnone := hfirst.fault
      rw [fault?_of_read hread] at hnone
      cases hnone
  | error e' => rw [(firstFault_of_read hread).unique hfirst]

theorem cause?_eq_none_iff {α : Type} {result : Except ConfigCause α} :
    cause? result = none ↔ ∃ a, result = .ok a := by
  cases result <;> simp [cause?]

/-- Behind variables whose texts are accepted, a variable has no fault if its text is accepted. -/
theorem fault?_eq_none_iff (h : ∀ w ∈ v.earlier, Accepted env w) :
    fault? env v = none ↔ Accepted env v := by
  cases v with
  | chainMarket =>
      simp only [fault?, cause?_eq_none_iff, mapError_eq_ok, Exchange.read_eq_ok_iff, Accepted]
  | chainRoots =>
      obtain ⟨market, hmarket⟩ := h .chainMarket (by decide)
      simp only [fault?, Exchange.read_eq_ok_iff.2 hmarket, cause?_eq_none_iff,
        exists_readChains_iff, Accepted]
  | refreshInterval =>
      simp only [fault?, cause?_eq_none_iff, exists_readInterval_iff, Accepted]
  | chainMode => simp only [fault?, cause?_eq_none_iff, exists_readMode_iff, Accepted]
  | backtestStart => simp only [fault?, cause?_eq_none_iff, readStart_eq_ok_iff, Accepted]
  | backtestDays =>
      obtain ⟨start, hstart⟩ := h .backtestStart (by decide)
      have hread := readStart_eq_ok_iff.2 hstart
      have hunique : ∀ other, Timestamp.WritesTimestamp
          (Text.trimmed (env.text .backtestStart).toList) other → other = start := by
        intro other hother
        have hsame := (readStart_eq_ok_iff.2 hother).symm.trans hread
        exact Except.ok.inj hsame
      constructor
      · intro hfault
        simp only [fault?, hread] at hfault
        cases hcount : readPositive (env.text .backtestDays) with
        | error cause => simp [hcount] at hfault
        | ok days =>
            obtain ⟨hwrites, hpositive, hmax⟩ := readPositive_eq_ok_iff.1 hcount
            simp only [hcount, cause?_eq_none_iff] at hfault
            refine ⟨days, hwrites, hpositive, hmax, fun other hother => ?_⟩
            rw [hunique other hother]
            exact (exists_finishOf_iff hpositive).1 hfault
      · rintro ⟨days, hwrites, hpositive, hmax, hreach⟩
        have hcount := readPositive_eq_ok_iff.2 ⟨hwrites, hpositive, hmax⟩
        simp only [fault?, hcount, hread, cause?_eq_none_iff]
        exact (exists_finishOf_iff hpositive).2 (hreach start hstart)
  | accountCurrency =>
      simp only [fault?, cause?_eq_none_iff, mapError_eq_ok, Currency.read_eq_ok_iff, Accepted]

/-- Where neither a variable nor one before it has a fault, its text is accepted. -/
theorem accepted_of_fault?_eq_none (hself : fault? env v = none)
    (hearlier : ∀ w ∈ v.earlier, fault? env w = none) : Accepted env v := by
  -- the texts before it are accepted first, in the order of the variables
  induction hn : v.ctorIdx using Nat.strong_induction_on generalizing v with
  | _ n ih =>
      refine (fault?_eq_none_iff fun w hw => ?_).1 hself
      refine ih w.ctorIdx (hn ▸ Variable.mem_earlier_iff.1 hw) (hearlier w hw) ?_ rfl
      exact fun u hu => hearlier u (Variable.mem_earlier_trans hu hw)

/-- The blamed variable is the first whose text is not accepted. -/
theorem exists_read_eq_error_iff : (∃ cause, read env = .error ⟨v, cause⟩) ↔
    ¬ Accepted env v ∧ ∀ w ∈ v.earlier, Accepted env w := by
  constructor
  · rintro ⟨cause, hread⟩
    have hfirst := firstFault_of_read hread
    have hearlier : ∀ w ∈ v.earlier, Accepted env w := fun w hw =>
      accepted_of_fault?_eq_none (hfirst.first w hw) fun u hu =>
        hfirst.first u (Variable.mem_earlier_trans hu hw)
    refine ⟨fun haccepted => ?_, hearlier⟩
    have hnone := (fault?_eq_none_iff hearlier).2 haccepted
    rw [hfirst.fault] at hnone
    cases hnone
  · rintro ⟨hself, hearlier⟩
    obtain ⟨cause, hfault⟩ :=
      Option.ne_none_iff_exists'.1 (mt (fault?_eq_none_iff hearlier).1 hself)
    refine ⟨cause, read_eq_error_iff.2 ⟨hfault, fun w hw => ?_⟩⟩
    refine (fault?_eq_none_iff fun u hu => ?_).2 (hearlier w hw)
    exact hearlier u (Variable.mem_earlier_trans hu hw)

/-- A configuration is read if the texts of all variables are accepted. -/
theorem exists_read_eq_ok_iff : (∃ cfg, read env = .ok cfg) ↔ ∀ v, Accepted env v := by
  constructor
  · rintro ⟨cfg, hread⟩ v
    exact accepted_of_fault?_eq_none (fault?_of_read hread) fun w _ => fault?_of_read hread
  · intro h
    cases hread : read env with
    | ok cfg => exact ⟨cfg, rfl⟩
    | error e =>
        obtain ⟨hself, -⟩ := exists_read_eq_error_iff.1 ⟨e.cause, hread⟩
        exact absurd (h e.blamed) hself

/-- The fault of a variable depends on its own text and on those of the variables before it. -/
theorem fault?_congr (h : env.AgreesUpTo other v) : fault? other v = fault? env v := by
  have hown : other.text v = env.text v := h.text_eq (by simp [Variable.mem_earlier_iff])
  cases v with
  | chainRoots =>
      have hmarket := h.text_eq (w := .chainMarket) (by decide)
      simp only [fault?, hown, hmarket]
  | backtestDays =>
      have hstart := h.text_eq (w := .backtestStart) (by decide)
      simp only [fault?, hown, hstart]
  | _ => simp only [fault?, hown]

/-- What is behind the blamed variable has no part in the error. -/
theorem FirstFault.congr (hfirst : FirstFault env e) (h : env.AgreesUpTo other e.blamed) :
    FirstFault other e where
  fault := (fault?_congr h).trans hfirst.fault
  first v hv := (fault?_congr (h.of_earlier hv)).trans (hfirst.first v hv)

/-- The text of a chain list that is not set is read for every market. -/
theorem cause?_readChains_default (market : Exchange) :
    cause? (readChains market Variable.chainRoots.defaultText) = none := by
  cases market <;> rfl

/-- Timestamps are so early that the calendar goes on for five days behind each of them. -/
theorem cause?_finishOf_default {text : String} {start : Instant}
    (h : readStart text = .ok start) : cause? (finishOf start 5) = none := by
  have hsecond := Timestamp.second_lt_of_read (mapError_eq_ok.1 h)
  have hground := start.ground_bounds
  have hfirst := start.first_le_ground
  have hreach : (start.add? (⟨5 * 86400⟩ : Span)).isSome = true := by
    rw [Instant.add?_of_span (by rw [Duration.span_coe]; decide), Instant.isSome_ofNanos?_iff]
    have hbefore : ((⟨10000, 1, 1⟩ : Calendar.Civil).dayNumber + 6) * secondsPerDay <
      Instant.lastSecond := by decide
    simp only [Instant.nanosPerSecond, secondsPerDay] at *
    omega
  obtain ⟨finish, hfinish⟩ := Option.isSome_iff_exists.1 hreach
  have hspan : Span.ofDays? 5 = some ⟨5 * 86400⟩ := rfl
  simp only [finishOf, hspan, Option.bind_some, hfinish, cause?]

/-- A default text has no fault. -/
theorem fault?_unset_self (env : Environment) (v : Variable) : fault? (env.unset v) v = none := by
  cases v with
  | chainRoots =>
      simp only [fault?, Environment.text_unset_self]
      split
      · exact cause?_readChains_default _
      · rfl
  | backtestDays =>
      have hdays : readPositive Variable.backtestDays.defaultText = .ok 5 := rfl
      have hstart := env.text_unset_of_ne (v := .backtestDays) (w := .backtestStart) (by decide)
      simp only [fault?, Environment.text_unset_self, hdays, hstart]
      cases hread : readStart (env.text .backtestStart) with
      | error cause => rfl
      | ok start => exact cause?_finishOf_default hread
  | _ =>
      simp only [fault?, Environment.text_unset_self]
      decide +kernel

/-- Without the first faulty variable there is no fault at it or before it. -/
theorem FirstFault.earlier_of_unset (h : FirstFault env e)
    (h' : FirstFault (env.unset e.blamed) e') : e.blamed ∈ e'.blamed.earlier := by
  obtain hafter | heq | hbefore := e.blamed.earlier_trichotomy e'.blamed
  · exact hafter
  · have hfault := h'.fault
    rw [← heq, fault?_unset_self] at hfault
    cases hfault
  · have hfault := h'.fault
    rw [fault?_congr (env.agreesUpTo_unset hbefore), h.first _ hbefore] at hfault
    cases hfault

/-- A cause is the fault of some reading. -/
theorem cause?_eq_some_iff {α : Type} {result : Except ConfigCause α} {cause : ConfigCause} :
    cause? result = some cause ↔ result = .error cause := by
  cases result <;> simp [cause?]

theorem number?_of_mapError {ε α : Type} {result : Except ε α} {f : ε → ConfigCause}
    {cause : ConfigCause} (hf : ∀ error, (f error).number? = none)
    (h : cause? (result.mapError f) = some cause) : cause.number? = none := by
  cases result with
  | ok a => cases h
  | error error =>
      cases h
      exact hf error

/-- An item that cannot be read has no number to complain about. -/
theorem number?_of_readChain {market : Exchange} {item : List Char} {cause : ConfigCause}
    (h : readChain market item = .error cause) : cause.number? = none := by
  unfold readChain at h
  split at h
  · cases h
  · split at h <;> cases h
    rfl

theorem number?_of_mapM_readChain {market : Exchange} {items : List (List Char)}
    {cause : ConfigCause} (h : items.mapM (readChain market) = .error cause) :
    cause.number? = none := by
  induction items with
  | nil => cases h
  | cons item rest ih =>
      simp only [List.mapM_cons, bind_eq_error] at h
      obtain hitem | ⟨chain, -, hrest | ⟨chains, -, hpure⟩⟩ := h
      · exact number?_of_readChain hitem
      · exact ih hrest
      · cases hpure

theorem number?_of_readChains {market : Exchange} {text : String} {cause : ConfigCause}
    (h : readChains market text = .error cause) : cause.number? = none := by
  simp only [readChains, bind_eq_error] at h
  obtain hitems | ⟨chains, -, hempty⟩ := h
  · exact number?_of_mapM_readChain hitems
  · split at hempty <;> cases hempty
    rfl

/-- A count that is refused fits in 64 bits. -/
theorem number?_of_readPositive {text : String} {cause : ConfigCause} {n : Int}
    (h : readPositive text = .error cause) (hn : n ∈ cause.number?) :
    minInt64 ≤ n ∧ n ≤ maxInt64 := by
  unfold readPositive at h
  split at h
  · cases h
    cases hn
  · rename_i value hread
    split at h <;> cases h
    cases hn
    exact readInt64_bounds hread

/-- A count that is taken fits in 64 bits. -/
theorem fits_of_readPositive {text : String} {n : Int} (h : readPositive text = .ok n) :
    minInt64 ≤ n ∧ n ≤ maxInt64 := by
  obtain ⟨hpositive, hmax⟩ := readPositive_bounds h
  exact ⟨Int.le_trans (by decide) (Int.le_of_lt hpositive), hmax⟩

theorem number?_of_readInterval {text : String} {cause : ConfigCause} {n : Int}
    (h : readInterval text = .error cause) (hn : n ∈ cause.number?) :
    minInt64 ≤ n ∧ n ≤ maxInt64 := by
  simp only [readInterval, bind_eq_error] at h
  obtain hcount | ⟨minutes, hcount, hrange⟩ := h
  · exact number?_of_readPositive hcount hn
  · split at hrange <;> cases hrange
    cases hn
    exact fits_of_readPositive hcount

/-- The number that a fault is about fits in 64 bits. -/
theorem number?_of_fault? {cause : ConfigCause} {n : Int} (h : fault? env v = some cause)
    (hn : n ∈ cause.number?) : minInt64 ≤ n ∧ n ≤ maxInt64 := by
  have none_of : cause.number? = none → minInt64 ≤ n ∧ n ≤ maxInt64 := fun hnone => by
    rw [hnone] at hn
    cases hn
  cases v with
  | chainMarket =>
      simp only [fault?] at h
      exact none_of (number?_of_mapError (fun _ => rfl) h)
  | chainRoots =>
      simp only [fault?] at h
      split at h
      · exact none_of (number?_of_readChains (cause?_eq_some_iff.1 h))
      · cases h
  | refreshInterval =>
      simp only [fault?] at h
      exact number?_of_readInterval (cause?_eq_some_iff.1 h) hn
  | chainMode =>
      simp only [fault?] at h
      have hread := cause?_eq_some_iff.1 h
      simp only [readMode] at hread
      split at hread
      · cases hread
      · split at hread <;> cases hread
        cases hn
  | backtestStart =>
      simp only [fault?, readStart] at h
      exact none_of (number?_of_mapError (fun _ => rfl) h)
  | backtestDays =>
      simp only [fault?] at h
      split at h
      · rename_i found hread
        obtain rfl : found = cause := Option.some.inj h
        exact number?_of_readPositive hread hn
      · rename_i days _ hread _
        have hfinish := cause?_eq_some_iff.1 h
        unfold finishOf at hfinish
        split at hfinish <;> cases hfinish
        cases hn
        exact fits_of_readPositive hread
      · cases h
  | accountCurrency =>
      simp only [fault?] at h
      exact none_of (number?_of_mapError (fun _ => rfl) h)

/-- What the times of a configuration keep: the interval is a positive number of minutes, there is
a day at least, and the end is as many days behind the start. A start in a leap second counts as the
second before it. -/
structure WellTimed (cfg : Config) : Prop where
  interval : ∃ minutes, 0 < minutes ∧ Span.ofMinutes? minutes = some cfg.interval
  interval_pos : 0 < cfg.interval.seconds
  one_le_days : 1 ≤ cfg.days
  days_le : cfg.days ≤ maxInt64
  finish : ∃ span, Span.ofDays? cfg.days = some span ∧ cfg.start.add? span = some cfg.finish
  finish_second : cfg.finish.second = cfg.start.second + cfg.days * secondsPerDay
  finish_nano : cfg.finish.nano = cfg.start.nano % Instant.nanosPerSecond
  start_lt : cfg.start < cfg.finish

theorem wellTimed_of_read {cfg : Config} (h : read env = .ok cfg) : cfg.WellTimed := by
  obtain ⟨hinterval, hdays, hfinish⟩ := of_read h
  obtain ⟨minutes, hminutes, hofMinutes⟩ := ofMinutes?_of_readInterval hinterval
  obtain ⟨hpositive, hmax⟩ := readPositive_bounds hdays
  obtain ⟨span, hofDays, hadd⟩ := ofDays?_of_finishOf hfinish
  have hminutesSpan := Span.seconds_ofSeconds? hofMinutes
  have hdaysSpan := Span.seconds_ofSeconds? hofDays
  have hlong : 0 < span.seconds := by omega
  obtain ⟨hsecond, hnano⟩ := Instant.parts_add?_of_span hlong hadd
  exact {
    interval := ⟨minutes, hminutes, hofMinutes⟩
    interval_pos := by omega
    one_le_days := by omega
    days_le := hmax
    finish := ⟨span, hofDays, hadd⟩
    finish_second := by rw [hsecond, hdaysSpan, secondsPerDay]
    finish_nano := hnano
    start_lt := Instant.lt_of_add? (by simp only; omega) hadd }

/-- A configuration is read if all its texts are accepted, and otherwise the first variable whose
text is not accepted is blamed: the error is this variable's name with what is wrong with its text,
it stays the same whatever is changed behind the variable, and without the variable the reading
succeeds or ends at a later one. Numbers in errors fit in 64 bits, and the times of a configuration
that is read are in range and in order. -/
theorem first_fault_blamed (env : Environment) :
    ((∃ cfg, read env = .ok cfg) ↔ ∀ v, Accepted env v) ∧
    (∀ v, (∃ cause, read env = .error ⟨v, cause⟩) ↔
      ¬ Accepted env v ∧ ∀ w ∈ v.earlier, Accepted env w) ∧
    (∀ e, read env = .error e ↔ FirstFault env e) ∧
    (∀ e, read env = .error e →
      e.messages.head? = some e.blamed.name ∧
      (∀ n ∈ e.cause.number?, minInt64 ≤ n ∧ n ≤ maxInt64) ∧
      (∀ other, env.AgreesUpTo other e.blamed → read other = .error e) ∧
      ((∃ cfg, read (env.unset e.blamed) = .ok cfg) ∨
        ∃ e', read (env.unset e.blamed) = .error e' ∧ e.blamed ∈ e'.blamed.earlier)) ∧
    ∀ cfg, read env = .ok cfg → cfg.WellTimed := by
  refine ⟨exists_read_eq_ok_iff, fun v => exists_read_eq_error_iff, fun e => read_eq_error_iff,
    fun e hread => ?_, fun cfg => wellTimed_of_read⟩
  have hfirst := read_eq_error_iff.1 hread
  refine ⟨rfl, fun n => number?_of_fault? hfirst.fault, fun other hagrees => ?_, ?_⟩
  · exact read_eq_error_iff.2 (hfirst.congr hagrees)
  · cases hunset : read (env.unset e.blamed) with
    | ok cfg => exact .inl ⟨cfg, rfl⟩
    | error e' => exact .inr ⟨e', rfl, hfirst.earlier_of_unset (read_eq_error_iff.1 hunset)⟩

/-- With a mode and days that are wrong the mode is blamed, also where the days have their default;
where the mode has its default, the days are. The defaults together are read. -/
theorem first_fault_blamed_mode_and_days :
    let env : Environment := fun name =>
      if name = "CHAIN_MODE" then some "paper"
      else if name = "BACKTEST_DAYS" then some "0"
      else none
    read env = .error ⟨.chainMode, .mode "paper"⟩ ∧
      (¬ Accepted env .chainMode ∧ Accepted env .refreshInterval) ∧
      read (env.unset .backtestDays) = .error ⟨.chainMode, .mode "paper"⟩ ∧
      (∃ e, read (env.unset .chainMode) = .error e ∧ .chainMode ∈ e.blamed.earlier) ∧
      (∀ v, Accepted (fun _ => none) v) ∧
      ∃ cfg, read (fun _ => none) = .ok cfg ∧ cfg.WellTimed := by
  intro env
  have hfirst : FirstFault env ⟨.chainMode, .mode "paper"⟩ :=
    ⟨by decide +kernel, by decide +kernel⟩
  have hdays : ¬ (read (env.unset .chainMode)).isOk := by decide +kernel
  have hdefaults : (read fun _ => none).isOk := by decide +kernel
  obtain ⟨-, hblamed, hfault, hreject, -⟩ := first_fault_blamed env
  have hread := (hfault _).2 hfirst
  obtain ⟨hmode, hearlier⟩ := (hblamed .chainMode).1 ⟨_, hread⟩
  obtain ⟨-, -, hbehind, hunset⟩ := hreject _ hread
  refine ⟨hread, ⟨hmode, hearlier _ (by decide)⟩, hbehind _ (env.agreesUpTo_unset (by decide)),
    ?_, ?_⟩
  · refine hunset.resolve_left ?_
    rintro ⟨cfg, hcfg⟩
    simp [hcfg, Except.isOk, Except.toBool] at hdays
  · obtain ⟨haccepted, -, -, -, htimed⟩ := first_fault_blamed fun _ => none
    cases hcfg : read fun _ => none with
    | error e => simp [hcfg, Except.isOk, Except.toBool] at hdefaults
    | ok cfg => exact ⟨haccepted.1 ⟨cfg, hcfg⟩, cfg, rfl, htimed cfg hcfg⟩

end Config

end FuturesChains
