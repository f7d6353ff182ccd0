import Mathlib.Algebra.Order.Floor.Div
import FuturesChains.Backtest
import FuturesChains.Proofs.Calendar.EqualSteps
import FuturesChains.Proofs.Selection.RefreshSchedule

/-!
# The span of a backtest

A backtest of some days runs one cycle for every hour of them, from any start that a configuration
admits. `Backtest.cycles` runs a number of cycles and records each of them, and `Backtest.InStep` is
what they keep: the clock stands as many hours behind the start as there were cycles, and the model
was refreshed in the cycles whose numbers are multiples of the stride, the interval in hours rounded
up. `backtest_span` says that a whole run is these cycles and nothing else, which of them refresh
the model, and that a refresh resolves the configured chains.
-/

namespace FuturesChains

/-- A cycle of a run: the backtest before it, what it did, and the backtest that it left. -/
structure CycleRecord where
  before : Backtest
  report : CycleReport
  after : Backtest

namespace CycleRecord

/-- The notices of a cycle. -/
def notices (r : CycleRecord) : List Notice := Backtest.notices r.before r.after r.report

/-- The cycle refreshes its one model at its time, and changes the engine by nothing else. -/
def Refreshes (r : CycleRecord) (m : SelectionModel) : Prop :=
  ∃ report, r.report.refreshes = [report] ∧ report.model = 0 ∧
    report.IsRefresh m r.before.engine.clock r.before.engine r.after.engine

/-- The cycle refreshes no model and leaves the engine. -/
def Rests (r : CycleRecord) : Prop :=
  r.report.refreshes = [] ∧ r.after.engine = r.before.engine

end CycleRecord

namespace SelectionModel

/-- The model after refreshes at some times, the latest first. -/
def askedAt (m : SelectionModel) (times : List Instant) : SelectionModel :=
  { m with
    nextRefresh := (times.head?.map fun t => (t.add? m.interval).getD .latest).getD .earliest
    asked := times }

theorem onSchedule_askedAt (m : SelectionModel) (times : List Instant) :
    (m.askedAt times).OnSchedule := rfl

/-- A step asks a model once more if it is due. -/
theorem afterStep_askedAt (m : SelectionModel) (times : List Instant) (now : Instant) :
    (m.askedAt times).afterStep now =
      m.askedAt (if FuturesChains.isScheduled m.interval times.head? now then now :: times
        else times) := by
  by_cases hdue : FuturesChains.isScheduled m.interval times.head? now = true
  · rw [if_pos hdue]
    exact if_pos hdue
  · rw [if_neg hdue]
    exact if_neg hdue

end SelectionModel

/-- A refresh is the same whenever the model was refreshed before. -/
theorem RefreshReport.IsRefresh.of_askedAt {r : RefreshReport} {m : SelectionModel}
    {times : List Instant} {now : Instant} {e after : Engine}
    (h : r.IsRefresh (m.askedAt times) now e after) : r.IsRefresh m now e after where
  pulls := by
    have hpulls := h.pulls
    rwa [SelectionModel.eager, SelectionModel.askedAt, SelectionModel.resolveAll_schedule] at hpulls
  nextRefresh := h.nextRefresh

namespace Backtest

/-- Run a number of cycles, the clock moving on by an hour after each: their records, and the
backtest after them. -/
def cycles (b : Backtest) : Nat → Except Halt (List CycleRecord × Backtest)
  | 0 => .ok ([], b)
  | count + 1 => do
    let (records, b) ← b.cycles count
    let (report, after) ← b.cycle listedMonths
    return (records ++ [⟨b, report, after⟩],
      { after with engine := after.engine.advance cycleSpan })

/-- One cycle more than some. -/
theorem cycles_succ_eq_ok {b last : Backtest} {count : Nat} {records : List CycleRecord}
    (h : b.cycles (count + 1) = .ok (records, last)) :
    ∃ earlier mid report after, b.cycles count = .ok (earlier, mid) ∧
      mid.cycle listedMonths = .ok (report, after) ∧
      records = earlier ++ [⟨mid, report, after⟩] ∧
      last = { after with engine := after.engine.advance cycleSpan } := by
  simp only [cycles, Halt.bind_eq_ok] at h
  obtain ⟨⟨earlier, mid⟩, hearlier, ⟨report, after⟩, hcycle, h⟩ := h
  cases h
  exact ⟨earlier, mid, report, after, hearlier, hcycle, rfl, rfl⟩

/-- The times of the cycles before some cycle whose numbers are multiples of the stride, the latest
first. -/
def refreshCycles (start : Instant) (stride count : Nat) : List Instant :=
  (((List.range count).filter (stride ∣ ·)).map (start.afterSteps cycleSpan)).reverse

/-- What a number of cycles from a start leave: the clock is as many hours on, and the model was
refreshed in those of the cycles whose numbers are multiples of the stride. -/
structure InStep (b : Backtest) (start : Instant) (model : SelectionModel) (stride count : Nat) :
    Prop where
  clock : b.engine.clock = start.afterSteps cycleSpan count
  models : b.manager.models = [model.askedAt (refreshCycles start stride count)]

/-- A multiple of the stride follows a number whose remainder is the largest one. -/
theorem dvd_succ_iff {stride : Nat} (hstride : 0 < stride) (k : Nat) :
    stride ∣ k + 1 ↔ stride ≤ k + 1 - stride * (k / stride) := by
  have hsplit := Nat.div_add_mod k stride
  have hlt := Nat.mod_lt k hstride
  have hsucc : k + 1 = stride * (k / stride) + (k % stride + 1) := by omega
  rw [hsucc, Nat.dvd_add_right (Nat.dvd_mul_right ..), ← hsucc]
  constructor
  · intro hdvd
    have hle := Nat.le_of_dvd (Nat.succ_pos _) hdvd
    omega
  · intro hle
    rw [show k % stride + 1 = stride by omega]

theorem refreshCycles_succ (start : Instant) (stride count : Nat) :
    refreshCycles start stride (count + 1) =
      if stride ∣ count then start.afterSteps cycleSpan count :: refreshCycles start stride count
      else refreshCycles start stride count := by
  unfold refreshCycles
  rw [List.range_succ, List.filter_append]
  split
  · rename_i hdvd
    simp [hdvd]
  · rename_i hdvd
    simp [hdvd]

/-- The last of them is at the latest multiple of the stride. -/
theorem head?_refreshCycles (start : Instant) (stride count : Nat) :
    (refreshCycles start stride (count + 1)).head? =
      some (start.afterSteps cycleSpan (stride * (count / stride))) := by
  induction count with
  | zero => simp [refreshCycles]
  | succ count ih =>
      rw [refreshCycles_succ]
      split
      · rename_i hdvd
        rw [List.head?_cons, Nat.mul_div_cancel' hdvd]
      · rename_i hdvd
        rw [ih, Nat.succ_div_of_not_dvd hdvd]

/-- The number of multiples of the stride below a number. -/
theorem succ_ceilDiv {stride : Nat} (hstride : 0 < stride) (count : Nat) :
    (count + 1) ⌈/⌉ stride = count ⌈/⌉ stride + if stride ∣ count then 1 else 0 := by
  have hsucc : count + 1 + stride - 1 = count + stride - 1 + 1 := by omega
  have hdvd : stride ∣ count + stride - 1 + 1 ↔ stride ∣ count := by
    rw [show count + stride - 1 + 1 = count + stride by omega, Nat.dvd_add_left (Nat.dvd_refl _)]
  rw [Nat.ceilDiv_eq_add_pred_div, Nat.ceilDiv_eq_add_pred_div, hsucc, Nat.succ_div]
  simp only [hdvd]

/-- The numbers of a backtest: as many hours as cycles lead from the start to the end, and the
stride is the least number of hours that is not shorter than the interval. -/
structure Pace (start finish : Instant) (interval : Duration) (stride count : Nat) : Prop where
  hours : Instant.ofNanos? (start.ground + count * (cycleSpan : Duration).nanos) = some finish
  positive : 0 < interval.span.seconds
  nonempty : 0 < count
  stride_le : ∀ n : Nat, interval.nanos ≤ n * (cycleSpan : Duration).nanos ↔ stride ≤ n

variable {start finish : Instant} {interval : Duration} {stride count : Nat}

theorem Pace.stride_pos (h : Pace start finish interval stride count) : 0 < stride := by
  have hnanos := Duration.le_nanos_of_span h.positive
  rcases Nat.eq_zero_or_pos stride with hzero | hpos
  · have hle := (h.stride_le 0).2 (Nat.le_of_eq hzero)
    simp only [Int.natCast_zero, Int.zero_mul] at hle
    omega
  · exact hpos

/-- By the schedule a refresh is due in the cycles whose numbers are multiples of the stride. -/
theorem Pace.isScheduled (h : Pace start finish interval stride count) {k : Nat} (hk : k < count) :
    FuturesChains.isScheduled interval (refreshCycles start stride k).head?
      (start.afterSteps cycleSpan k) = decide (stride ∣ k) := by
  cases k with
  | zero => simp [refreshCycles, FuturesChains.isScheduled]
  | succ k =>
      have hle : stride * (k / stride) ≤ k := Nat.mul_div_le k stride
      have hpassed := Instant.advance_afterSteps_le_iff (d := cycleSpan) (by decide) h.hours
        h.positive (Nat.lt_succ_of_le hle) hk
      rw [h.stride_le, ← dvd_succ_iff h.stride_pos, Instant.advance] at hpassed
      simpa [head?_refreshCycles, FuturesChains.isScheduled] using hpassed

variable {model : SelectionModel}

/-- A cycle refreshes the model if its number is a multiple of the stride, however the refresh goes,
and the clock moves on by an hour. -/
theorem InStep.cycle {b after : Backtest} {report : CycleReport} {k : Nat}
    (h : b.InStep start model stride k) (hpace : Pace start finish model.interval stride count)
    (hk : k < count) (hcycle : b.cycle listedMonths = .ok (report, after)) :
    ({ after with engine := after.engine.advance cycleSpan } : Backtest).InStep start model stride
        (k + 1) ∧
      if stride ∣ k then (CycleRecord.mk b report after).Refreshes model
      else (CycleRecord.mk b report after).Rests := by
  obtain ⟨manager, hstep, hkept⟩ := cycle_eq_ok hcycle
  have hclock := (Resolutions.of_step hstep).1.clock_defaults.1
  obtain ⟨hafter, hreports⟩ := SelectionManager.step_eq_ok hstep (by
    intro m hm
    rw [h.models, List.mem_singleton] at hm
    rw [hm]
    exact model.onSchedule_askedAt _)
  let times := refreshCycles start stride k
  have hdue : isScheduled model.interval times.head? b.engine.clock = decide (stride ∣ k) := by
    rw [h.clock]
    exact hpace.isScheduled hk
  have hasked : isScheduled (model.askedAt times).interval (model.askedAt times).asked.head?
      b.engine.clock = decide (stride ∣ k) := hdue
  refine ⟨⟨?_, ?_⟩, ?_⟩
  · show after.engine.clock.advance cycleSpan = _
    rw [hclock, h.clock]
    rfl
  · show after.manager.models = _
    rw [hkept, hafter, h.models, List.map_singleton, SelectionModel.afterStep_askedAt, hdue,
      refreshCycles_succ, h.clock]
    simp only [decide_eq_true_eq]
  · rw [h.models, dueModels_cons, hasked] at hreports
    split
    · rename_i hdvd
      rw [if_pos (decide_eq_true hdvd)] at hreports
      obtain ⟨one, hone, hnumber, hrefresh⟩ := hreports.eq_singleton
      exact ⟨one, hone, hnumber, hrefresh.of_askedAt⟩
    · rename_i hdvd
      rw [if_neg (by simpa using hdvd)] at hreports
      exact hreports.eq_nil

/-- Some cycles of a run, by induction on their number: each keeps in step, and the refreshes are
those of the multiples of the stride. -/
theorem InStep.cycles {b last : Backtest} (h : b.InStep start model stride 0)
    (hpace : Pace start finish model.interval stride count) {k : Nat} (hk : k ≤ count)
    {records : List CycleRecord} (hcycles : b.cycles k = .ok (records, last)) :
    last.InStep start model stride k ∧ records.length = k ∧
      (∀ i record, records[i]? = some record → record.before.InStep start model stride i ∧
        if stride ∣ i then record.Refreshes model else record.Rests) ∧
      (records.flatMap (·.report.refreshes)).length = k ⌈/⌉ stride := by
  induction k generalizing records last with
  | zero =>
      cases hcycles
      exact ⟨h, rfl, by simp, by simp⟩
  | succ k ih =>
      obtain ⟨earlier, mid, report, after, hearlier, hcycle, rfl, rfl⟩ := cycles_succ_eq_ok hcycles
      obtain ⟨hmid, hlength, hrecords, hcount⟩ := ih (Nat.le_of_succ_le hk) hearlier
      obtain ⟨hlast, hrefreshes⟩ := hmid.cycle hpace hk hcycle
      refine ⟨hlast, by simp [hlength], ?_, ?_⟩
      · intro i record hrecord
        rcases Nat.lt_trichotomy i k with hi | rfl | hi
        · rw [List.getElem?_append_left (by omega)] at hrecord
          exact hrecords i record hrecord
        · rw [← hlength, List.getElem?_concat_length] at hrecord
          obtain rfl := Option.some.inj hrecord
          exact ⟨hmid, hrefreshes⟩
        · rw [List.getElem?_eq_none (by simp; omega)] at hrecord
          cases hrecord
      · have hone : report.refreshes.length = if stride ∣ k then 1 else 0 := by
          split at hrefreshes
          · obtain ⟨one, hone, -⟩ := hrefreshes
            simp only at hone
            rw [hone, if_pos ‹_›]
            rfl
          · rw [show report.refreshes = [] from hrefreshes.1, if_neg ‹_›]
            rfl
        rw [List.flatMap_append, List.length_append, hcount, succ_ceilDiv hpace.stride_pos]
        simpa using hone

/-- A run from an instant on starts by setting the clock to it. -/
theorem runFrom_setClock (now finish : Instant) (b : Backtest) (log : List Notice) :
    runFrom now finish (b.setClock now) log = runFrom now finish b log := by
  rw [runFrom, runFrom]
  rfl

/-- A run goes through the cycles up to any number of them, and goes on from there. -/
theorem runFrom_eq_cycles {b : Backtest} (h : b.InStep start model stride 0)
    (hpace : Pace start finish model.interval stride count) (log : List Notice) {k : Nat}
    (hk : k ≤ count) :
    runFrom start finish b log = b.cycles k >>= fun (records, b) =>
      runFrom (start.afterSteps cycleSpan k) finish b
        ((records.flatMap (·.notices)).reverse ++ log) := by
  induction k with
  | zero => rfl
  | succ k ih =>
      rw [ih (Nat.le_of_succ_le hk)]
      cases hearlier : b.cycles k with
      | error stop => simp [Backtest.cycles, hearlier, bind, Except.bind]
      | ok result =>
          obtain ⟨earlier, mid⟩ := result
          obtain ⟨hmid, -⟩ := h.cycles hpace (Nat.le_of_succ_le hk) hearlier
          have hbefore := Instant.afterSteps_lt (d := cycleSpan) (by decide) hpace.hours hk
          have hset : mid.setClock (start.afterSteps cycleSpan k) = mid := by
            rw [← hmid.clock]
            rfl
          simp only [Backtest.cycles, hearlier, bind, Except.bind]
          rw [runFrom, dif_pos hbefore, hset]
          cases hcycle : mid.cycle listedMonths with
          | error stop => rfl
          | ok result =>
              obtain ⟨report, after⟩ := result
              let last : CycleRecord := ⟨mid, report, after⟩
              have hlog : last.notices.reverse ++ ((earlier.flatMap (·.notices)).reverse ++ log) =
                  ((earlier ++ [last]).flatMap (·.notices)).reverse ++ log := by
                simp
              show runFrom (start.afterSteps cycleSpan (k + 1)) finish after _ =
                runFrom (start.afterSteps cycleSpan (k + 1)) finish
                  { after with engine := after.engine.advance cycleSpan } _
              -- the clock that a state comes with plays no part
              rw [show (notices mid after report) = last.notices from rfl, hlog,
                ← runFrom_setClock _ _ after, ← runFrom_setClock _ _ { after with
                engine := after.engine.advance cycleSpan }]
              rfl

/-- A run is its cycles up to the end and nothing else. -/
theorem runFrom_eq_map_cycles {b : Backtest} (h : b.InStep start model stride 0)
    (hpace : Pace start finish model.interval stride count) (log : List Notice) :
    runFrom start finish b log = (b.cycles count).map fun (records, b) =>
      ((records.flatMap (·.notices)).reverse ++ log, b) := by
  rw [runFrom_eq_cycles h hpace log (Nat.le_refl count)]
  cases hcycles : b.cycles count with
  | error stop => rfl
  | ok result =>
      obtain ⟨records, last⟩ := result
      obtain ⟨hlast, -⟩ := h.cycles hpace (Nat.le_refl count) hcycles
      have hend := Instant.afterSteps_eq_finish (d := cycleSpan) (by decide) hpace.hours
        hpace.nonempty
      have hover : ¬ finish < finish := by
        rw [Instant.lt_iff]
        omega
      have hset : last.setClock finish = last := by
        rw [← hend, ← hlast.clock]
        rfl
      simp only [bind, Except.bind, Except.map, hend]
      rw [runFrom, dif_neg hover, hset]

/-- Cycles go on to any number of them if none stops. -/
theorem exists_cycles {b : Backtest} (hgoes : ∀ k < count, ∀ records mid,
      b.cycles k = .ok (records, mid) → ∃ result, mid.cycle listedMonths = .ok result)
    {k : Nat} (hk : k ≤ count) : ∃ result, b.cycles k = .ok result := by
  induction k with
  | zero => exact ⟨_, rfl⟩
  | succ k ih =>
      obtain ⟨⟨records, mid⟩, hmid⟩ := ih (Nat.le_of_succ_le hk)
      obtain ⟨⟨report, after⟩, hcycle⟩ := hgoes k hk records mid hmid
      simp only [Backtest.cycles, Halt.bind_eq_ok]
      exact ⟨_, _, hmid, _, hcycle, rfl⟩

end Backtest

namespace Config

/-- The stride of a configuration: the interval in hours, rounded up. -/
def stride (cfg : Config) : Nat := cfg.interval.minutes.toNat ⌈/⌉ 60

/-- The number of cycles of a configuration: the hours of its days. -/
def hours (cfg : Config) : Nat := 24 * cfg.days.toNat

/-- The numbers of a configuration that is read fit together. -/
theorem pace_of_read {env : Environment} {cfg : Config} (h : read env = .ok cfg) :
    Backtest.Pace cfg.start cfg.finish cfg.interval cfg.stride cfg.hours := by
  obtain ⟨hinterval, hdays, hfinish⟩ := of_read h
  obtain ⟨minutes, hminutes, hseconds⟩ := readInterval_eq_ok hinterval
  obtain ⟨hpositive, -⟩ := readPositive_bounds hdays
  obtain ⟨span, hspan, hadd⟩ := finishOf_eq_ok hfinish
  have hdaysSpan : 0 < (span : Duration).span.seconds := by
    rw [Duration.span_coe, hspan]
    omega
  have hhours : (cfg.hours : Int) * (cycleSpan : Duration).nanos = (span : Duration).nanos := by
    simp only [hours, cycleSpan, hspan]
    omega
  have hstride : cfg.stride = minutes.toNat ⌈/⌉ 60 := by
    rw [stride, Span.minutes, hseconds, Int.mul_tdiv_cancel minutes (by decide)]
  refine ⟨?_, ?_, ?_, fun n => ?_⟩
  · rw [hhours, ← hadd, Instant.add?_of_span hdaysSpan]
  · rw [Duration.span_coe, hseconds]
    omega
  · simp only [hours]
    omega
  · rw [hstride, Nat.ceilDiv_eq_add_pred_div]
    simp only [cycleSpan, hseconds]
    omega

end Config

/-- A backtest starts in step. -/
theorem Backtest.inStep_start (cfg : Config) :
    (Backtest.start cfg).InStep cfg.start
      (frontMonthModel cfg.chains cfg.interval frontWindowDays) cfg.stride 0 where
  clock := rfl
  models := rfl

/-- Every configuration that is read runs one cycle for each hour of its days, unless one of them
stops without an answer: the run consists of these cycles, and the clock ends at the end of the
span. Each cycle begins as many hours behind the start, before the end, and the clock moves on from
it without meeting the end of the calendar. The model is refreshed in the cycles whose numbers, from
zero on, are multiples of the interval in hours, rounded up, however the refreshes go: it is asked
at the time of the cycle, and the chains of the configuration are resolved in order. In the other
cycles it is not asked, and the engine stays as it is. -/
theorem backtest_span {env : Environment} {cfg : Config} (hread : Config.read env = .ok cfg)
    (hmode : cfg.mode = .backtest) :
    Backtest.run cfg = ((Backtest.start cfg).cycles cfg.hours).map (fun (records, b) =>
        ((records.flatMap (·.notices)).reverse ++
          [.starting cfg.chains cfg.mode cfg.interval], b)) ∧
      (∀ k ≤ cfg.hours, ∀ records b, (Backtest.start cfg).cycles k = .ok (records, b) →
        records.length = k ∧ (k = cfg.hours → b.engine.clock = cfg.finish) ∧
          (∀ i record, records[i]? = some record →
            record.before.engine.clock = cfg.start.afterSteps cycleSpan i ∧
              record.before.engine.clock < cfg.finish ∧
              (record.before.engine.clock.add? cycleSpan).isSome = true ∧
              if cfg.stride ∣ i then
                record.Refreshes (frontMonthModel cfg.chains cfg.interval frontWindowDays)
              else record.Rests) ∧
          (∃ m, b.manager.models = [m] ∧ m.asked.reverse =
            ((List.range k).filter (cfg.stride ∣ ·)).map (cfg.start.afterSteps cycleSpan)) ∧
          (records.flatMap (·.report.refreshes)).length = k ⌈/⌉ cfg.stride) ∧
      ((∀ k < cfg.hours, ∀ records b, (Backtest.start cfg).cycles k = .ok (records, b) →
          ∃ result, b.cycle listedMonths = .ok result) →
        ∃ log b, Backtest.run cfg = .ok (log, b) ∧ b.engine.clock = cfg.finish ∧
          runBacktest env = .ofRun (.ofSetting (env logVariable)) log b) := by
  have hpace : Backtest.Pace cfg.start cfg.finish
      (frontMonthModel cfg.chains cfg.interval frontWindowDays).interval cfg.stride cfg.hours :=
    Config.pace_of_read hread
  have hstart := Backtest.inStep_start cfg
  have hrun := Backtest.runFrom_eq_map_cycles hstart hpace
    [.starting cfg.chains cfg.mode cfg.interval]
  have hend := Instant.afterSteps_eq_finish (d := cycleSpan) (by decide) hpace.hours hpace.nonempty
  refine ⟨hrun, ?_, fun hgoes => ?_⟩
  · intro k hk records b hcycles
    obtain ⟨hb, hlength, hrecords, hcount⟩ := hstart.cycles hpace hk hcycles
    refine ⟨hlength, ?_, ?_, ⟨_, hb.models, List.reverse_reverse _⟩, hcount⟩
    · rintro rfl
      rw [hb.clock, hend]
    · intro i record hrecord
      obtain ⟨hbefore, hrefreshes⟩ := hrecords i record hrecord
      have hi : i < cfg.hours := by
        have hlt := (List.getElem?_eq_some_iff.1 hrecord).1
        omega
      rw [hbefore.clock]
      refine ⟨rfl, Instant.afterSteps_lt (by decide) hpace.hours hi, ?_, hrefreshes⟩
      rw [(Instant.add?_afterSteps (by decide) hpace.hours hi).1]
      rfl
  · obtain ⟨⟨records, b⟩, hcycles⟩ := Backtest.exists_cycles hgoes (Nat.le_refl cfg.hours)
    obtain ⟨hb, -⟩ := hstart.cycles hpace (Nat.le_refl cfg.hours) hcycles
    rw [hcycles] at hrun
    exact ⟨_, b, hrun, by rw [hb.clock, hend], runBacktest_eq_ofRun hread hmode hrun⟩

/-- A backtest of a day from a leap second on that refreshes every hour and a half: its run is 24
cycles, those with even numbers refresh, and the clock ends at the end of the span, which is in no
leap second. Nothing is known of the first chain, so each refresh asks for it and fails. -/
theorem backtest_span_leap_second :
    let env : Environment := fun name =>
      if name = "BACKTEST_START" then some "2016-12-31T23:59:60Z"
      else if name = "BACKTEST_DAYS" then some "1"
      else if name = "REFRESH_INTERVAL_MINS" then some "90"
      else if name = "CHAIN_ROOTS" then some "XX,CL"
      else none
    let missing : Symbol := .undated "XX" .future .nymex
    ∃ cfg records b m, Config.read env = .ok cfg ∧ cfg.mode = .backtest ∧
      cfg.start.nano = 1000000000 ∧ cfg.finish.nano = 0 ∧
      (Backtest.start cfg).cycles 24 = .ok (records, b) ∧
      Backtest.run cfg = .ok ((records.flatMap (·.notices)).reverse ++
        [.starting cfg.chains cfg.mode cfg.interval], b) ∧
      records.length = 24 ∧ b.engine.clock = cfg.finish ∧
      (∀ i record, records[i]? = some record →
        if 2 ∣ i then record.Refreshes (frontMonthModel cfg.chains (⟨5400⟩ : Span) frontWindowDays)
        else record.Rests) ∧
      records.map (·.report.refreshes.map (·.pulls.map (·.1.symbol))) =
        (List.replicate 12 [[[missing]], []]).flatten ∧
      b.manager.models = [m] ∧ m.asked.length = 12 ∧
      (records.flatMap (·.report.refreshes)).length = 12 := by
  intro env missing
  have hread : (Config.read env).toOption.map (fun cfg =>
      (cfg.mode, cfg.start.nano, cfg.finish.nano, cfg.days, cfg.interval)) =
      some (.backtest, 1000000000, 0, 1, ⟨5400⟩) := by
    decide +kernel
  have hpulled : (Config.read env).toOption.map (fun cfg =>
      ((Backtest.start cfg).cycles 24).map fun result =>
        result.1.map (·.report.refreshes.map (·.pulls.map (·.1.symbol)))) =
      some (.ok (List.replicate 12 [[[missing]], []]).flatten) := by
    decide +kernel
  obtain ⟨cfg, hcfg, hfields⟩ := Option.map_eq_some_iff.1 hread
  simp only [Prod.mk.injEq] at hfields
  obtain ⟨hmode, hleap, hfinish, hdays, hinterval⟩ := hfields
  have hhours : cfg.hours = 24 := by
    rw [Config.hours, hdays]
    rfl
  have hstride : cfg.stride = 2 := by
    rw [Config.stride, hinterval]
    rfl
  rw [hcfg, Option.map_some, Option.some.injEq, Halt.map_eq_ok] at hpulled
  obtain ⟨⟨records, b⟩, hrecords, hpulled⟩ := hpulled
  cases hresult : Config.read env with
  | error e =>
      rw [hresult] at hcfg
      cases hcfg
  | ok found =>
      rw [hresult] at hcfg
      obtain rfl : found = cfg := Option.some.inj hcfg
      obtain ⟨hrun, hcycles, -⟩ := backtest_span hresult hmode
      rw [hhours] at hrun hcycles
      obtain ⟨hlength, hend, hrefreshes, ⟨m, hm, hasked⟩, hcount⟩ :=
        hcycles 24 (Nat.le_refl 24) records b hrecords
      rw [hstride] at hrefreshes hcount hasked
      rw [hinterval] at hrefreshes
      rw [hrecords] at hrun
      have htimes := congrArg List.length hasked
      rw [List.length_reverse, List.length_map] at htimes
      exact ⟨found, records, b, m, rfl, hmode, hleap, hfinish, hrecords, hrun, hlength, hend rfl,
        fun i record h => (hrefreshes i record h).2.2.2, hpulled, hm, htimes.trans (by decide),
        hcount⟩

end FuturesChains
