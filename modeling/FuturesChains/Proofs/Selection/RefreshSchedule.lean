import FuturesChains.Proofs.Selection.EagerRefresh

/-!
# The schedule of refreshes

A manager refreshes a model at a step if the model was never refreshed, or if the step is not before
an interval after the last refresh, or before the last instant if the calendar does not reach that
far. `refreshTimes` lists these steps. What a refresh is, `RefreshReport.IsRefresh` says: the
selector is asked at the time of the step, and what is pulled is the eager refresh over its answer.
`refresh_schedule` says that along every run of a host the managed models are refreshed at exactly
these steps, however the refreshes went, and it bounds their number: with a positive interval and a
clock that does not go back, there is at most one refresh for every interval, and one more.
-/

namespace FuturesChains

/-- By the schedule a refresh is due at a time: there was none yet, or the last was an interval
ago. -/
def isScheduled (interval : Duration) (last : Option Instant) (now : Instant) : Bool :=
  last.all fun t => (t.add? interval).getD .latest ≤ now

/-- Those of some times at which a refresh is due, when every time that is due has a refresh. -/
def refreshTimes (interval : Duration) (last : Option Instant) : List Instant → List Instant
  | [] => []
  | now :: rest =>
    if isScheduled interval last now then now :: refreshTimes interval (some now) rest
    else refreshTimes interval last rest

/-- A refresh that is due before the last instant is an interval after the one before it. -/
theorem nanos_of_isScheduled {interval : Duration} {t now : Instant} (hleap : t.isLeap = false)
    (hnow : now < .latest) (h : isScheduled interval (some t) now = true) :
    t.nanos + interval.nanos ≤ now.nanos := by
  have hle : t.advance interval ≤ now := of_decide_eq_true h
  cases hadd : t.add? interval with
  | none =>
      -- a stamp at the end of the calendar is not reached before it
      rw [Instant.advance_eq_latest hadd, Instant.le_iff] at hle
      rw [Instant.lt_iff] at hnow
      omega
  | some next =>
      obtain ⟨hnanos, hnext⟩ := Instant.add?_nanos hleap hadd
      rw [Instant.advance_of_add? hadd] at hle
      have := Instant.nanos_le hnext hle
      omega

/-- The refreshes that follow one at a time take up their intervals between it and any end, while
the clock does not go back. -/
theorem length_refreshTimes_mul_le (interval : Duration) {times : List Instant} {t b : Instant}
    (hsorted : (t :: times).Pairwise (· ≤ ·)) (hleap : ∀ u ∈ t :: times, u.isLeap = false)
    (hb : ∀ u ∈ t :: times, u ≤ b) (hlast : b < .latest) :
    ((refreshTimes interval (some t) times).length : Int) * interval.nanos ≤ b.nanos - t.nanos := by
  induction times generalizing t with
  | nil =>
      have := Instant.nanos_le (hleap t (by simp)) (hb t (by simp))
      simp only [refreshTimes, List.length_nil]
      omega
  | cons now rest ih =>
      obtain ⟨hbehind, hrest⟩ := List.pairwise_cons.1 hsorted
      unfold refreshTimes
      split
      · rename_i hdue
        have hnow : now < .latest := by
          have hle := hb now (by simp)
          rw [Instant.le_iff] at hle
          rw [Instant.lt_iff] at hlast ⊢
          omega
        have hapart := nanos_of_isScheduled (hleap t (by simp)) hnow hdue
        have hlater := ih hrest (fun u hu => hleap u (List.mem_cons_of_mem t hu))
          (fun u hu => hb u (List.mem_cons_of_mem t hu))
        rw [List.length_cons, Int.natCast_succ, Int.add_mul, Int.one_mul]
        omega
      · have hsub : (t :: rest).Sublist (t :: now :: rest) := by simp
        exact ih (hsorted.sublist hsub) (fun u hu => hleap u (hsub.subset hu))
          fun u hu => hb u (hsub.subset hu)

/-- There is at most one refresh for every interval between two bounds of the times, and one
more. -/
theorem length_refreshTimes_le {interval : Duration} (last : Option Instant) {times : List Instant}
    {a b : Instant} (hinterval : 0 < interval.nanos) (hab : a ≤ b) (ha : a.isLeap = false)
    (hlast : b < .latest) (hsorted : times.Pairwise (· ≤ ·))
    (htimes : ∀ t ∈ times, a ≤ t ∧ t ≤ b ∧ t.isLeap = false) :
    ((refreshTimes interval last times).length : Int) ≤
      1 + (b.nanos - a.nanos) / interval.nanos := by
  induction times with
  | nil =>
      have hnonneg : 0 ≤ (b.nanos - a.nanos) / interval.nanos :=
        Int.ediv_nonneg (Int.sub_nonneg_of_le (Instant.nanos_le ha hab)) (Int.le_of_lt hinterval)
      simp only [refreshTimes, List.length_nil]
      omega
  | cons now rest ih =>
      unfold refreshTimes
      split
      -- the first refresh is the one more, and those that follow it take up their intervals
      · have hlater := length_refreshTimes_mul_le interval hsorted
          (fun u hu => (htimes u hu).2.2) (fun u hu => (htimes u hu).2.1) hlast
        have hnow := Instant.nanos_le ha (htimes now (by simp)).1
        have hdiv := (Int.le_ediv_iff_mul_le hinterval).2 (Int.le_trans hlater
          (show b.nanos - now.nanos ≤ b.nanos - a.nanos by omega))
        rw [List.length_cons, Int.natCast_succ]
        omega
      · exact ih (List.pairwise_cons.1 hsorted).2 fun t ht =>
          htimes t (List.mem_cons_of_mem now ht)

namespace SelectionModel

/-- The next refresh is due when the schedule says so. -/
def OnSchedule (m : SelectionModel) : Prop :=
  m.nextRefresh = (m.asked.head?.map fun t => (t.add? m.interval).getD .latest).getD .earliest

/-- The model after a step at a time. -/
def afterStep (m : SelectionModel) (now : Instant) : SelectionModel :=
  if isScheduled m.interval m.asked.head? now then m.refreshed now else m

/-- The model after steps at some times. -/
def afterSteps (m : SelectionModel) (times : List Instant) : SelectionModel :=
  times.foldl afterStep m

theorem OnSchedule.isDue_eq {m : SelectionModel} (h : m.OnSchedule) (now : Instant) :
    m.isDue now = isScheduled m.interval m.asked.head? now := by
  unfold isDue isScheduled
  rw [h]
  cases m.asked.head? with
  | none => simp [Instant.earliest_le]
  | some t => rfl

theorem OnSchedule.refreshed (m : SelectionModel) (now : Instant) :
    (m.refreshed now).OnSchedule := rfl

theorem OnSchedule.afterStep {m : SelectionModel} (h : m.OnSchedule) (now : Instant) :
    (m.afterStep now).OnSchedule := by
  unfold SelectionModel.afterStep
  split
  · exact .refreshed m now
  · exact h

theorem onSchedule_model (p : ModelPlan) : p.model.OnSchedule := rfl

theorem forall_onSchedule_concat {models : List SelectionModel} {model : SelectionModel}
    (hmodels : ∀ m ∈ models, m.OnSchedule) (hmodel : model.OnSchedule) :
    ∀ m ∈ models ++ [model], m.OnSchedule :=
  List.forall_mem_append.2 ⟨hmodels, List.forall_mem_singleton.2 hmodel⟩

/-- A filter has no part in the schedule. -/
theorem forall_onSchedule_modify {models : List SelectionModel} (number : Nat)
    (filter : ContractFilter) (hmodels : ∀ m ∈ models, m.OnSchedule) :
    ∀ m ∈ models.modify number ({ · with filter }), m.OnSchedule := by
  intro m hm
  obtain ⟨i, hi⟩ := List.mem_iff_getElem?.1 hm
  rw [List.getElem?_modify] at hi
  obtain ⟨old, hold, rfl⟩ := Option.map_eq_some_iff.1 hi
  have hold := hmodels old (List.mem_of_getElem? hold)
  split
  · exact hold
  · exact hold

/-- Steps ask the selector at the times of the schedule, and leave what the model was made from. -/
theorem asked_afterSteps (m : SelectionModel) (times : List Instant) :
    (m.afterSteps times).asked.reverse =
        m.asked.reverse ++ refreshTimes m.interval m.asked.head? times ∧
      (m.afterSteps times).interval = m.interval ∧
      (m.afterSteps times).selector = m.selector := by
  induction times generalizing m with
  | nil => simp [afterSteps, refreshTimes]
  | cons now rest ih =>
      have hrest := ih (m.afterStep now)
      rw [show m.afterSteps (now :: rest) = (m.afterStep now).afterSteps rest from rfl]
      unfold refreshTimes
      split
      · rename_i hdue
        rw [show m.afterStep now = m.refreshed now from if_pos hdue] at hrest ⊢
        simpa [refreshed, ask, stamp] using hrest
      · rename_i hdue
        rw [show m.afterStep now = m from if_neg hdue] at hrest ⊢
        exact hrest

end SelectionModel

/-- The report is that of a refresh of a model at a time, from one engine to another. The selector
is asked for the symbols of that time, and the pulls show what the eager refresh over them shows.
The next refresh is due an interval later, or at the last instant. -/
structure RefreshReport.IsRefresh (r : RefreshReport) (m : SelectionModel) (now : Instant)
    (e after : Engine) : Prop where
  pulls : (m.eager ⟨now, e.defaults⟩ e (m.selector.select now)).drain e =
    .ok (r.pulls.map (·.1.shown), after)
  nextRefresh : r.nextRefresh = (now.add? m.interval).getD .latest

/-- `RefreshesInOrder now due reports e after` says that the reports are those of the refreshes of
some numbered models at a time, one after the other and each in the engine that the one before
left. -/
inductive RefreshesInOrder (now : Instant) :
    List (SelectionModel × Nat) → List RefreshReport → Engine → Engine → Prop where
  | nil (e : Engine) : RefreshesInOrder now [] [] e e
  | cons {m : SelectionModel} {report : RefreshReport} {due : List (SelectionModel × Nat)}
      {reports : List RefreshReport} {e mid after : Engine}
      (first : report.IsRefresh m now e mid) (later : RefreshesInOrder now due reports mid after) :
      RefreshesInOrder now ((m, report.model) :: due) (report :: reports) e after

namespace RefreshesInOrder

variable {now : Instant} {due : List (SelectionModel × Nat)} {reports : List RefreshReport}
  {e after : Engine}

theorem eq_nil (h : RefreshesInOrder now [] reports e after) : reports = [] ∧ after = e := by
  cases h
  exact ⟨rfl, rfl⟩

/-- One model has one refresh. -/
theorem eq_singleton {m : SelectionModel} {number : Nat}
    (h : RefreshesInOrder now [(m, number)] reports e after) :
    ∃ report, reports = [report] ∧ report.model = number ∧ report.IsRefresh m now e after := by
  cases h with
  | cons first later =>
      obtain ⟨rfl, rfl⟩ := later.eq_nil
      exact ⟨_, rfl, rfl, first⟩

/-- Every report is that of a refresh of one of the models. -/
theorem of_mem (h : RefreshesInOrder now due reports e after) {report : RefreshReport}
    (hreport : report ∈ reports) :
    ∃ m before mid, (m, report.model) ∈ due ∧ report.IsRefresh m now before mid := by
  induction h with
  | nil e => cases hreport
  | @cons m first due reports e mid after hfirst _ ih =>
      rcases List.mem_cons.1 hreport with rfl | hreport
      · exact ⟨m, e, mid, List.mem_cons_self, hfirst⟩
      · obtain ⟨m', before, mid', hmem, hrefresh⟩ := ih hreport
        exact ⟨m', before, mid', List.mem_cons_of_mem _ hmem, hrefresh⟩

end RefreshesInOrder

/-- The models whose refresh is due at a time, with their numbers from one number on. -/
def dueModels (now : Instant) (number : Nat) (models : List SelectionModel) :
    List (SelectionModel × Nat) :=
  (models.zipIdx number).filter fun (m, _) => isScheduled m.interval m.asked.head? now

/-- The first model counts if it is due. -/
theorem dueModels_cons (now : Instant) (number : Nat) (m : SelectionModel)
    (rest : List SelectionModel) :
    dueModels now number (m :: rest) =
      if isScheduled m.interval m.asked.head? now then
        (m, number) :: dueModels now (number + 1) rest
      else dueModels now (number + 1) rest := by
  rw [dueModels, List.zipIdx_cons, List.filter_cons]
  rfl

namespace SelectionManager

/-- A refresh by a manager is the eager refresh over what the model's selector gives at that time.
-/
theorem isRefresh_of_refreshModel {now : Instant} {number : Nat} {model model' : SelectionModel}
    {universes universes' : ActiveUniverses} {e after : Engine} {report : RefreshReport}
    (h : refreshModel number model now universes e = .ok (report, model', universes', after)) :
    report.model = number ∧ report.IsRefresh model now e after := by
  obtain ⟨-, hnumber, hnext, hdrain, -⟩ := refreshModel_eq_ok h
  have hshown := model.drain_refresh (e.contextAt now) e
  rw [hdrain] at hshown
  refine ⟨hnumber, hshown.symm.trans ?_, hnext⟩
  simp only [Except.map, Refresh.shownAll, List.map_map, Function.comp_def]

/-- A manager's pass over models refreshes those that are due, one after the other, and leaves the
others as they are, whatever the refreshes give. -/
theorem stepModels_eq_ok {now : Instant} {number : Nat}
    {universes universes' : ActiveUniverses} {e after : Engine}
    {models models' : List SelectionModel} {reports : List RefreshReport}
    (h : stepModels now number universes e models = .ok (reports, models', universes', after))
    (hschedule : ∀ m ∈ models, m.OnSchedule) :
    models' = models.map (·.afterStep now) ∧
      RefreshesInOrder now (dueModels now number models) reports e after := by
  induction models generalizing number universes e reports models' universes' after with
  | nil =>
      cases h
      exact ⟨rfl, .nil e⟩
  | cons model rest ih =>
      obtain ⟨hfirst, hrest⟩ := List.forall_mem_cons.1 hschedule
      have hdue := hfirst.isDue_eq now
      rcases stepModels_cons_eq_ok h with
        ⟨hisDue, report, universes₁, mid, reports', rest', hrefresh, hlater, rfl, rfl⟩ |
        ⟨hisDue, rest', hlater, rfl⟩
      · rw [hdue] at hisDue
        obtain ⟨hmodels, hreports⟩ := ih hlater hrest
        obtain ⟨rfl, hgiven⟩ := isRefresh_of_refreshModel hrefresh
        refine ⟨by rw [List.map_cons, hmodels, SelectionModel.afterStep, if_pos hisDue], ?_⟩
        rw [dueModels_cons, if_pos hisDue]
        exact .cons hgiven hreports
      · rw [hdue] at hisDue
        obtain ⟨hmodels, hreports⟩ := ih hlater hrest
        constructor
        · rw [List.map_cons, hmodels, SelectionModel.afterStep, hisDue]
          rfl
        · rw [dueModels_cons, hisDue]
          exact hreports

/-- A step refreshes the models that are due at the engine's time, one after the other. -/
theorem step_eq_ok {manager manager' : SelectionManager} {e after : Engine}
    {reports : List RefreshReport} (h : manager.step e = .ok (reports, manager', after))
    (hschedule : ∀ m ∈ manager.models, m.OnSchedule) :
    manager'.models = manager.models.map (·.afterStep e.clock) ∧
      RefreshesInOrder e.clock (dueModels e.clock 0 manager.models) reports e after := by
  simp only [step, Halt.bind_eq_ok] at h
  obtain ⟨⟨reports', models, universes, last⟩, hmodels, h⟩ := h
  cases h
  exact stepModels_eq_ok hmodels hschedule

end SelectionManager

/-- The time of an action that is a step. -/
def HostAction.stepTimes (clock : Instant) : HostAction → List Instant
  | .step => [clock]
  | _ => []

namespace Host

/-- The times of the steps among some actions, from a time of the clock on. -/
def stepTimes (clock : Instant) : List HostAction → List Instant
  | [] => []
  | action :: rest => action.stepTimes clock ++ stepTimes (action.clockAfter clock) rest

/-- All models of a host are on schedule. -/
structure OnSchedule (h : Host) : Prop where
  held : ∀ m ∈ h.models, m.OnSchedule
  managed : ∀ m ∈ h.manager.models, m.OnSchedule

theorem onSchedule_start (facilities : Facilities) (clock : Instant) :
    (start facilities clock).OnSchedule where
  held := by simp [start]
  managed := by simp [start, SelectionManager.empty]

variable {h after : Host} {given : List ChainUniverse}

/-- A step takes the managed models one step on, and no other action changes them; an action may add
a model behind them. All models stay on schedule. -/
theorem act_models {action : HostAction} (hact : h.act action = .ok (given, after))
    (hschedule : h.OnSchedule) :
    after.OnSchedule ∧ ∃ added, after.manager.models =
      h.manager.models.map (·.afterSteps (action.stepTimes h.engine.clock)) ++ added := by
  obtain ⟨hheld, hmanaged⟩ := hschedule
  have hsame : h.manager.models = h.manager.models.map (·.afterSteps []) := by
    simp [SelectionModel.afterSteps]
  have hkept : h.manager.models = h.manager.models.map (·.afterSteps []) ++ [] := by
    rw [List.append_nil]
    exact hsame
  cases action with
  | hold plan =>
      cases hact
      have hmodels := SelectionModel.forall_onSchedule_concat hheld
        (SelectionModel.onSchedule_model plan)
      exact ⟨⟨hmodels, hmanaged⟩, [], hkept⟩
  | setFilter number filter =>
      cases hact
      have hmodels := SelectionModel.forall_onSchedule_modify number filter hheld
      exact ⟨⟨hmodels, hmanaged⟩, [], hkept⟩
  | refresh number ctx =>
      simp only [act] at hact
      split at hact
      · cases hact
        exact ⟨⟨hheld, hmanaged⟩, [], hkept⟩
      · cases hact
        refine ⟨⟨fun m hm => ?_, hmanaged⟩, [], hkept⟩
        rcases List.mem_or_eq_of_mem_set hm with hm | rfl
        · exact hheld m hm
        · exact .refreshed _ _
  | resolve number ctx symbol | pull number =>
      simp only [act] at hact
      split at hact
      · cases hact
        exact ⟨⟨hheld, hmanaged⟩, [], hkept⟩
      · rw [Halt.bind_eq_ok] at hact
        obtain ⟨⟨result, engine⟩, -, hact⟩ := hact
        cases result <;> cases hact <;> exact ⟨⟨hheld, hmanaged⟩, [], hkept⟩
  | manage plan =>
      cases hact
      have hmodels := SelectionModel.forall_onSchedule_concat hmanaged
        (SelectionModel.onSchedule_model plan)
      exact ⟨⟨hheld, hmodels⟩, [plan.model], congrArg (· ++ [plan.model]) hsame⟩
  | handOver number =>
      simp only [act] at hact
      split at hact
      · cases hact
        exact ⟨⟨hheld, hmanaged⟩, [], hkept⟩
      · rename_i model hmodel
        cases hact
        have hmodels := SelectionModel.forall_onSchedule_concat hmanaged
          (hheld model (List.mem_of_getElem? hmodel))
        exact ⟨⟨fun m hm => hheld m (List.mem_of_mem_eraseIdx hm), hmodels⟩, [model],
          congrArg (· ++ [model]) hsame⟩
  | step =>
      obtain ⟨reports, manager, engine, hstep, rfl, rfl⟩ := act_step_iff.1 hact
      obtain ⟨hmodels, -⟩ := SelectionManager.step_eq_ok hstep hmanaged
      refine ⟨⟨hheld, fun m hm => ?_⟩, [], by rw [List.append_nil]; exact hmodels⟩
      rw [hmodels] at hm
      obtain ⟨old, hold, rfl⟩ := List.mem_map.1 hm
      exact (hmanaged old hold).afterStep h.engine.clock
  | feed chain contracts =>
      simp only [act, SelectionManager.onChainContracts, Halt.bind_eq_ok] at hact
      obtain ⟨_, ⟨_, _, hfed⟩, hact⟩ := hact
      cases hfed
      cases hact
      exact ⟨⟨hheld, hmanaged⟩, [], hkept⟩
  | setDefaultSettings settings | setDefaultInitializer initializer | setClock time | advance d =>
      cases hact
      exact ⟨⟨hheld, hmanaged⟩, [], hkept⟩

/-- A run takes the managed models through its steps, by induction on its actions. -/
theorem run_models {actions : List HostAction} (hrun : h.run actions = .ok (given, after))
    (hschedule : h.OnSchedule) :
    after.OnSchedule ∧ ∃ added, after.manager.models =
      h.manager.models.map (·.afterSteps (stepTimes h.engine.clock actions)) ++ added := by
  induction actions generalizing h given with
  | nil =>
      cases hrun
      exact ⟨hschedule, [], by simp [SelectionModel.afterSteps, stepTimes]⟩
  | cons action rest ih =>
      obtain ⟨first, mid, later, hact, hrest, rfl, -⟩ := run_cons_eq_ok hrun
      obtain ⟨hmid, added, hmodels⟩ := act_models hact hschedule
      obtain ⟨hafter, more, hlater⟩ := ih hrest hmid
      have hclock : mid.engine.clock = action.clockAfter h.engine.clock := by
        obtain ⟨-, _, -, hengine⟩ := act_engine hact
        rw [hengine]
      refine ⟨hafter, added.map (·.afterSteps (stepTimes mid.engine.clock rest)) ++ more, ?_⟩
      rw [hlater, hmodels, hclock, List.map_append, List.map_map, List.append_assoc]
      simp [stepTimes, SelectionModel.afterSteps, List.foldl_append, Function.comp_def]

/-- A managed model keeps its number when others are added behind it. -/
theorem getElem?_of_models {added : List SelectionModel} {times : List Instant} {number : Nat}
    {m : SelectionModel}
    (hmodels : after.manager.models = h.manager.models.map (·.afterSteps times) ++ added)
    (hm : h.manager.models[number]? = some m) :
    after.manager.models[number]? = some (m.afterSteps times) := by
  have hlt := (List.getElem?_eq_some_iff.1 hm).1
  rw [hmodels, List.getElem?_append_left (by simpa using hlt), List.getElem?_map, hm]
  rfl

end Host

/-- At any point of a run, a step refreshes exactly the managed models that are due by the schedule,
each once and one after the other: it asks the selector for the symbols of that time, pulls them and
notes the call and the time of the next refresh. It leaves the other models as they are, and no
other action changes a managed model. Along the rest of the run the selector of a model is asked at
exactly the steps of the schedule, whatever the refreshes gave. If the interval is positive and the
clock does not go back from one step to the next, it is asked at most once for every interval
between two bounds of the steps, and once more. -/
theorem refresh_schedule {facilities : Facilities} {clock : Instant} {first later : List HostAction}
    {given more : List ChainUniverse} {mid last : Host}
    (hfirst : (Host.start facilities clock).run first = .ok (given, mid))
    (hlater : mid.run later = .ok (more, last)) :
    (∀ reports manager e, mid.manager.step mid.engine = .ok (reports, manager, e) →
        RefreshesInOrder mid.engine.clock (dueModels mid.engine.clock 0 mid.manager.models) reports
          mid.engine e ∧
        manager.models = mid.manager.models.map fun m =>
          if isScheduled m.interval m.asked.head? mid.engine.clock then
            { m with
              nextRefresh := (mid.engine.clock.add? m.interval).getD .latest
              asked := mid.engine.clock :: m.asked }
          else m) ∧
      (∀ action produced after, mid.act action = .ok (produced, after) → action ≠ .step →
        ∀ (number : Nat) (m : SelectionModel), mid.manager.models[number]? = some m →
          after.manager.models[number]? = some m) ∧
      ∀ (number : Nat) (m : SelectionModel), mid.manager.models[number]? = some m → m.OnSchedule ∧
        ∃ m' : SelectionModel, last.manager.models[number]? = some m' ∧ m'.OnSchedule ∧
          m'.interval = m.interval ∧ m'.selector = m.selector ∧
          m'.asked.reverse = m.asked.reverse ++
            refreshTimes m.interval m.asked.head? (Host.stepTimes mid.engine.clock later) ∧
          ∀ a b : Instant, 0 < m.interval.nanos → a ≤ b → b < .latest → a.isLeap = false →
            (Host.stepTimes mid.engine.clock later).Pairwise (· ≤ ·) →
            (∀ t ∈ Host.stepTimes mid.engine.clock later, a ≤ t ∧ t ≤ b ∧ t.isLeap = false) →
            (m'.asked.length : Int) ≤
              m.asked.length + (1 + (b.nanos - a.nanos) / m.interval.nanos) := by
  obtain ⟨hmid, -⟩ := Host.run_models hfirst (Host.onSchedule_start facilities clock)
  obtain ⟨hlast, added, hmodels⟩ := Host.run_models hlater hmid
  refine ⟨?_, ?_, ?_⟩
  · intro reports manager e hstep
    obtain ⟨hstepped, hreports⟩ := SelectionManager.step_eq_ok hstep hmid.managed
    exact ⟨hreports, hstepped⟩
  · intro action produced after hact hne number m hm
    obtain ⟨-, new, hafter⟩ := Host.act_models hact hmid
    have htimes : action.stepTimes mid.engine.clock = [] := by
      cases action <;> first | rfl | exact absurd rfl hne
    rw [htimes] at hafter
    exact Host.getElem?_of_models hafter hm
  · intro number m hm
    refine ⟨hmid.managed m (List.mem_of_getElem? hm), m.afterSteps
      (Host.stepTimes mid.engine.clock later), ?_⟩
    have hm' := Host.getElem?_of_models hmodels hm
    obtain ⟨hasked, hinterval, hselector⟩ :=
      m.asked_afterSteps (Host.stepTimes mid.engine.clock later)
    refine ⟨hm', hlast.managed _ (List.mem_of_getElem? hm'), hinterval, hselector, hasked, ?_⟩
    intro a b hpositive hab hb ha hsorted htimes
    have hbound := length_refreshTimes_le m.asked.head? hpositive hab ha hb hsorted htimes
    have hlength := congrArg List.length hasked
    simp only [List.length_reverse, List.length_append] at hlength
    omega

/-- Two hourly models are stepped every half hour, from noon to one. Both are refreshed twice: the
one that fails at its first symbol, which is no future, as well as the one that gives crude oil and
then gold. -/
theorem refresh_schedule_hourly :
    let oil : Symbol := .undated "CL" .future .nymex
    let gold : Symbol := .undated "GC" .future .comex
    let stock : Symbol := .equity "CL" .nymex
    let plan (symbols : List Symbol) : ModelPlan :=
      ⟨(⟨3600⟩ : Span), .standing symbols, none, none, .identity⟩
    let noon : Instant := ⟨43200, 0, by decide⟩
    let one : Instant := ⟨46800, 0, by decide⟩
    ∃ given mid more last reports manager e,
      (Host.start (.traded .standard) noon).run
          [.manage (plan [stock, gold]), .manage (plan [oil, gold, oil])] = .ok (given, mid) ∧
        mid.manager.step mid.engine = .ok (reports, manager, e) ∧
        reports.map (·.pulls.map (·.1.symbol)) = [[stock], [oil, gold]] ∧
        (∃ report ∈ reports, ∃ m before after, report.pulls.map (·.1.symbol) = [oil, gold] ∧
          (m, report.model) ∈ dueModels noon 0 mid.manager.models ∧
          report.IsRefresh m noon before after) ∧
        mid.run [.step, .advance (⟨1800⟩ : Span), .step, .setDefaultSettings .standard,
          .advance (⟨1800⟩ : Span), .step] = .ok (more, last) ∧
        ∀ number < 2, ∃ m m' : SelectionModel, ∃ waited,
          mid.manager.models[number]? = some m ∧
          mid.act (.advance (⟨1800⟩ : Span)) = .ok ([], waited) ∧
          waited.manager.models[number]? = some m ∧
          last.manager.models[number]? = some m' ∧ m'.asked.reverse = [noon, one] ∧
          (m'.asked.length : Int) ≤ 1 + (one.nanos - noon.nanos) / 3600000000000 := by
  intro oil gold stock plan noon one
  let actions : List HostAction := [.step, .advance (⟨1800⟩ : Span), .step,
    .setDefaultSettings .standard, .advance (⟨1800⟩ : Span), .step]
  let hour : Duration := (⟨3600⟩ : Span)
  have hrun : ((Host.start (.traded .standard) noon).run
      [.manage (plan [stock, gold]), .manage (plan [oil, gold, oil])] >>= fun start =>
        start.2.manager.step start.2.engine >>= fun step => (start.2.run actions).map fun _ =>
          (start.2.engine.clock, step.1.map (·.pulls.map (·.1.symbol)),
            start.2.manager.models.map fun m => (m.interval, m.asked))) =
      .ok (noon, [[stock], [oil, gold]], [(hour, []), (hour, [])]) := by
    decide +kernel
  simp only [Halt.bind_eq_ok] at hrun
  obtain ⟨⟨given, mid⟩, hfirst, ⟨reports, manager, e⟩, hstep, hrun⟩ := hrun
  obtain ⟨⟨more, last⟩, hlater, hresult⟩ := Halt.map_eq_ok.1 hrun
  simp only [Prod.mk.injEq] at hresult
  obtain ⟨hclock, hpulled, hmodels⟩ := hresult
  obtain ⟨hstepped, hkept, hrest⟩ := refresh_schedule hfirst hlater
  refine ⟨given, mid, more, last, reports, manager, e, hfirst, hstep, hpulled, ?_, hlater,
    fun number hnumber => ?_⟩
  · obtain ⟨report, hreport, hsymbols⟩ : ∃ report ∈ reports,
        report.pulls.map (·.1.symbol) = [oil, gold] := by
      rw [← List.mem_map, hpulled]
      simp
    obtain ⟨m, before, after, hmem, hrefresh⟩ :=
      (hstepped reports manager e hstep).1.of_mem hreport
    rw [hclock] at hmem hrefresh
    exact ⟨report, hreport, m, before, after, hsymbols, hmem, hrefresh⟩
  have hnew : (mid.manager.models.map fun m => (m.interval, m.asked))[number]? =
      some (hour, []) := by
    rw [hmodels]
    rcases number with _ | _ | number
    · rfl
    · rfl
    · omega
  rw [List.getElem?_map] at hnew
  obtain ⟨m, hm, hpair⟩ := Option.map_eq_some_iff.1 hnew
  obtain ⟨hinterval, hasked⟩ := Prod.mk.inj hpair
  obtain ⟨-, m', hm', -, -, -, htimes, hbound⟩ := hrest number m hm
  rw [hclock, hasked, hinterval] at htimes
  rw [hclock, hasked, hinterval] at hbound
  have hwaited : mid.act (.advance (⟨1800⟩ : Span)) =
      .ok ([], { mid with engine := mid.engine.advance (⟨1800⟩ : Span) }) := rfl
  refine ⟨m, m', _, hm, hwaited, hkept _ _ _ hwaited (by simp) number m hm, hm',
    htimes.trans (by decide +kernel), ?_⟩
  have hcount := hbound noon one (by decide) (by decide) (by decide) (by decide) (by decide +kernel)
    (by decide +kernel)
  exact Int.le_trans hcount (by decide +kernel)

end FuturesChains
