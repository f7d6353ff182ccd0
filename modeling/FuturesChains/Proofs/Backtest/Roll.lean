import FuturesChains.Backtest
import FuturesChains.Proofs.Instrument.FrontMonth
import FuturesChains.Proofs.Selection.ChainOwner

/-!
# Rolling front months

A backtest that keeps chains in force by their front months selects one contract for each of them in
every cycle: the one on the first of the month that comes next at the exchange. `Backtest.Tracked`
is what cycles keep: all universes in force come from the model, so their securities hold its
filter. `Backtest.Tracked.cycle` runs one cycle, `Backtest.Rolls` any number of them at any times,
and `front_month_roll` says what a cycle after these changes.
-/

namespace FuturesChains

/-- At an instant the calendar has the local date of a security's exchange and the first day of the
month after it. -/
def Security.hasMonthAhead (s : Security) (now : Instant) : Bool :=
  (s.hours.localDate? now).any fun today => (YearMonth.ofDate today).next.firstDay?.isSome

/-- The front contract of a registered chain: it is dated on the next first of a month, counted from
the local date of the chain's exchange. -/
def Engine.Fronts (e : Engine) (chain contract : Symbol) : Prop :=
  ∃ id security today first, e.registry.find? chain = some id ∧
    e.registry.security? id = some security ∧
    security.hours.localDate? e.clock = some today ∧ today.IsNextFirst first ∧
    contract = .future chain.id chain.market first

/-- The security of a universe in force is registered for its chain, holds a front month filter, and
has a month ahead. -/
def Engine.Feeds (e : Engine) (maxDays : Int) (entry : ActiveChain) : Prop :=
  ∃ security, e.registry.find? entry.chain = some entry.current.security ∧
    e.registry.security? entry.current.security = some security ∧
    security.filter = .frontMonth maxDays ∧ security.symbol = entry.chain ∧
    (security.symbol.kind = .future ∧ security.symbol.expiry = none) ∧
    security.hasMonthAhead e.clock = true

namespace Backtest

/-- The calendar reaches the next month at the exchange of every chain that is active once the
models that are due are refreshed. -/
def monthAhead (b : Backtest) : Bool :=
  match b.manager.step b.engine with
  | .error _ => true
  | .ok (_, manager, engine) => manager.universes.chains.all fun entry =>
    (engine.registry.security? entry.current.security).all (·.hasMonthAhead b.engine.clock)

/-- Cycles, each at a time of its own with a month ahead, lead from one backtest to another. -/
inductive Rolls (months : Nat) : Backtest → Backtest → Prop where
  | refl (b : Backtest) : Rolls months b b
  | cycle {b mid after : Backtest} (now : Instant) (report : CycleReport)
      (hrolls : Rolls months b mid) (hahead : (mid.setClock now).monthAhead = true)
      (hcycle : (mid.setClock now).cycle months = .ok (report, after)) : Rolls months b after

/-- What the cycles of a front month backtest keep besides the selections: the engine and the
universes in force are those of a log of resolutions, all by models with the filter. -/
structure Tracked (b : Backtest) (maxDays : Int) (log : List Attempt) : Prop where
  attached : b.engine.AttachedBy log
  holds : b.manager.universes.HoldsLast (log.flatMap (·.universes))
  distinct : b.manager.universes.Distinct
  filters : ∀ a ∈ log, a.model.filter = .frontMonth maxDays
  models : ∀ m ∈ b.manager.models, m.OnSchedule ∧ m.filter = .frontMonth maxDays

variable {b : Backtest} {maxDays : Int} {months : Nat} {log : List Attempt}

/-- An active chain is fed its listing, and the selection becomes its front contract. -/
theorem selectChain_eq_ok {entry : ActiveChain} (hmax : 30 ≤ maxDays) (hmonths : 2 ≤ months)
    (hfeeds : b.engine.Feeds maxDays entry)
    (hfind : b.manager.universes.find? entry.chain = some entry) :
    ∃ contract, b.engine.Fronts entry.chain contract ∧
      b.selectChain months entry =
        .ok ([(entry.chain, .between entry.selected [contract])],
          ⟨b.engine, ⟨b.manager.models,
            b.manager.universes.replace { entry with selected := [contract] }⟩⟩) := by
  obtain ⟨security, hregistered, hsecurity, hfilter, hsymbol, hchain, hahead⟩ := hfeeds
  obtain ⟨today, htoday, hahead⟩ := (Option.any_eq_true ..).1 hahead
  obtain ⟨first, hfirst, -⟩ := Date.exists_isNextFirst hahead
  obtain ⟨contracts, hselect, hcontract⟩ :=
    Security.select_frontMonth hfilter hmax hmonths hchain htoday hahead hfirst
  rw [hsymbol] at hselect hcontract
  have hlisted : listed months b.engine.registry b.engine.clock entry =
      .ok (monthlyListing entry.chain today months) := by
    simp only [listed, hsecurity, htoday, Halt.orStop]
    rfl
  have hnext : entry.next b.engine.registry b.engine.clock
      (monthlyListing entry.chain today months) =
        .ok [.future entry.chain.id entry.chain.market first] := by
    simp only [ActiveChain.next, ChainUniverse.select, hsecurity, hselect, Except.map, hcontract]
  have hrun := ActiveUniverses.run_iff.2 (.active entry _ hfind hnext)
  refine ⟨_, ⟨_, security, today, first, hregistered, hsecurity, htoday, hfirst, rfl⟩, ?_⟩
  simp only [selectChain, hlisted, SelectionManager.onChainContracts, hrun, bind, Except.bind, pure,
    Except.pure]
  rfl

/-- Some active chains are fed one after the other, by induction on their list. -/
theorem selectChains_eq_ok {entries : List ActiveChain} (hmax : 30 ≤ maxDays)
    (hmonths : 2 ≤ months) (hdistinct : (entries.map (·.chain)).Nodup)
    (hfeeds : ∀ entry ∈ entries, b.engine.Feeds maxDays entry)
    (hfind : ∀ entry ∈ entries, b.manager.universes.find? entry.chain = some entry) :
    ∃ changes universes, b.selectChains months entries =
        .ok (changes, { b with manager := { b.manager with universes } }) ∧
      changes.map (·.1) = entries.map (·.chain) ∧
      universes.chains.map (·.chain) = b.manager.universes.chains.map (·.chain) ∧
      (∀ entry ∈ entries, ∃ contract, b.engine.Fronts entry.chain contract ∧
        universes.find? entry.chain = some { entry with selected := [contract] } ∧
        (entry.chain, .between entry.selected [contract]) ∈ changes) ∧
      ∀ chain, chain ∉ entries.map (·.chain) →
        universes.find? chain = b.manager.universes.find? chain := by
  induction entries generalizing b with
  | nil => exact ⟨[], b.manager.universes, rfl, rfl, rfl, by simp, fun _ _ => rfl⟩
  | cons entry rest ih =>
      rw [List.map_cons, List.nodup_cons] at hdistinct
      have hentry := hfind entry (by simp)
      obtain ⟨contract, hfronts, hfirst⟩ :=
        selectChain_eq_ok hmax hmonths (hfeeds entry (by simp)) hentry
      have hreplace := ActiveUniverses.find?_replace hentry [contract]
      -- the entries behind the first one are still found as they were
      have hbehind : ∀ other ∈ rest, entry.chain ≠ other.chain := fun other hother heq =>
        hdistinct.1 (heq ▸ List.mem_map_of_mem hother)
      obtain ⟨changes, universes, hrest, hnames, hchains, hothers, hkept⟩ := ih hdistinct.2
        (b := ⟨b.engine, ⟨b.manager.models,
          b.manager.universes.replace { entry with selected := [contract] }⟩⟩)
        (fun other hother => hfeeds other (List.mem_cons_of_mem entry hother))
        (fun other hother => by
          rw [hreplace, if_neg (hbehind other hother)]
          exact hfind other (List.mem_cons_of_mem entry hother))
      refine ⟨(entry.chain, .between entry.selected [contract]) :: changes, universes, ?_, ?_, ?_,
        ?_, ?_⟩
      · simp only [selectChains, hfirst, hrest, bind, Except.bind, pure, Except.pure]
        rfl
      · rw [List.map_cons, List.map_cons, hnames]
      · exact hchains.trans (ActiveUniverses.chains_replace ..)
      · intro other hother
        rcases List.mem_cons.1 hother with rfl | hother
        · refine ⟨contract, hfronts, ?_, List.mem_cons_self⟩
          rw [hkept _ hdistinct.1, hreplace, if_pos rfl]
        · obtain ⟨next, hnext, hfound, hchange⟩ := hothers other hother
          exact ⟨next, hnext, hfound, List.mem_cons_of_mem _ hchange⟩
      · intro chain hchain
        rw [List.map_cons, List.mem_cons, not_or] at hchain
        rw [hkept chain hchain.2, hreplace, if_neg (Ne.symm hchain.1)]

/-- The backtest with another clock is tracked as well. -/
theorem Tracked.setClock (h : b.Tracked maxDays log) (now : Instant) :
    (b.setClock now).Tracked maxDays log where
  attached := { h.attached with }
  holds := h.holds
  distinct := h.distinct
  filters := h.filters
  models := h.models

/-- A step adds its resolutions to the log. -/
theorem Tracked.step (h : b.Tracked maxDays log) {refreshes : List RefreshReport}
    {manager : SelectionManager} {engine : Engine}
    (hstep : b.manager.step b.engine = .ok (refreshes, manager, engine)) :
    ∃ more, (Backtest.mk engine manager).Tracked maxDays (log ++ more) := by
  obtain ⟨hresolved, huniverses⟩ := Resolutions.of_step hstep
  obtain ⟨hmodels, -⟩ := SelectionManager.step_eq_ok hstep fun m hm => (h.models m hm).1
  have hmodels' : ∀ m ∈ manager.models, m.OnSchedule ∧ m.filter = .frontMonth maxDays := by
    intro m hm
    rw [hmodels] at hm
    obtain ⟨old, hold, rfl⟩ := List.mem_map.1 hm
    obtain ⟨hschedule, hfilter⟩ := h.models old hold
    refine ⟨hschedule.afterStep _, ?_⟩
    unfold SelectionModel.afterStep
    split
    · exact hfilter
    · exact hfilter
  refine ⟨_, ⟨h.attached.resolutions hresolved, ?_, ?_, ?_, hmodels'⟩⟩
  · rw [List.flatMap_append, huniverses, SelectionManager.universes_step hstep]
    exact h.holds.addAll _
  · rw [SelectionManager.universes_step hstep]
    exact h.distinct.addAll _
  · intro a ha
    rcases List.mem_append.1 ha with ha | ha
    · exact h.filters a ha
    · obtain ⟨-, report, -, hmodel⟩ := SelectionManager.of_mem_attempts ha
      exact (hmodels' a.model (List.mem_of_getElem? hmodel)).2

/-- The security of an active chain is the one that its owner, a front month model, left. -/
theorem Tracked.feeds (h : b.Tracked maxDays log) {entry : ActiveChain}
    (hentry : entry ∈ b.manager.universes.chains)
    (hahead : (b.engine.registry.security? entry.current.security).all
      (·.hasMonthAhead b.engine.clock) = true) : b.engine.Feeds maxDays entry := by
  obtain ⟨owner, security, howner, -, hregistered, hsecurity, hfilter, -⟩ :=
    h.holds.exists_owner h.attached (h.distinct.find?_of_mem hentry)
  obtain ⟨hkind, hexpiry, found, hfound, hsymbol⟩ := h.attached.of_find? hregistered
  obtain rfl : found = security := Option.some.inj (hfound.symm.trans hsecurity)
  refine ⟨found, hregistered, hsecurity, ?_, hsymbol, ?_, ?_⟩
  · rw [hfilter]
    exact h.filters owner (mem_of_owner? howner)
  · rw [hsymbol]
    exact ⟨hkind, hexpiry⟩
  · simpa [hsecurity] using hahead

/-- A cycle whose step gives an answer gives one, and leaves every active chain with its front
contract. The change of a chain is that from its selection before the cycle. -/
theorem Tracked.cycle (h : b.Tracked maxDays log) (hmax : 30 ≤ maxDays) (hmonths : 2 ≤ months)
    (hahead : b.monthAhead = true) {refreshes : List RefreshReport} {manager : SelectionManager}
    {engine : Engine} (hstep : b.manager.step b.engine = .ok (refreshes, manager, engine)) :
    ∃ changes after more, b.cycle months = .ok (⟨refreshes, changes⟩, after) ∧
      after.Tracked maxDays (log ++ more) ∧ after.engine.clock = b.engine.clock ∧
      changes.map (·.1) = after.manager.universes.chains.map (·.chain) ∧
      after.manager.universes.chains.map (·.chain) = manager.universes.chains.map (·.chain) ∧
      ∀ chain, after.manager.universes.contains chain = true → ∃ contract,
        after.engine.Fronts chain contract ∧
        after.manager.universes.selected chain = [contract] ∧
        (chain, .between (b.manager.universes.selected chain) [contract]) ∈ changes := by
  obtain ⟨more, hmid⟩ := h.step hstep
  have hclock : engine.clock = b.engine.clock := (Resolutions.of_step hstep).1.clock_defaults.1
  have hfeeds : ∀ entry ∈ manager.universes.chains, engine.Feeds maxDays entry := by
    intro entry hentry
    simp only [monthAhead, hstep, ← hclock, List.all_eq_true] at hahead
    exact hmid.feeds hentry (hahead entry hentry)
  obtain ⟨changes, universes, hselect, hnames, hchains, hselected, -⟩ :=
    selectChains_eq_ok (b := ⟨engine, manager⟩) hmax hmonths hmid.distinct hfeeds
      fun entry hentry => hmid.distinct.find?_of_mem hentry
  have hcurrent : ∀ chain, (universes.find? chain).map (·.current) =
      (manager.universes.find? chain).map (·.current) := by
    intro chain
    cases hold : manager.universes.find? chain with
    | none =>
        have hnone := ActiveUniverses.find?_eq_none_iff.1 hold
        rw [← hchains] at hnone
        rw [ActiveUniverses.find?_eq_none_iff.2 hnone]
    | some entry =>
        obtain rfl := ActiveUniverses.chain_of_find? hold
        obtain ⟨contract, -, hfound, -⟩ :=
          hselected entry (List.mem_of_find?_eq_some hold)
        rw [hfound]
        rfl
  refine ⟨changes, ⟨engine, { manager with universes }⟩, more, ?_, ?_, hclock, ?_, hchains, ?_⟩
  · simp only [Backtest.cycle, hstep, hselect, bind, Except.bind, pure, Except.pure]
  · refine { hmid with holds := fun chain => ?_, distinct := ?_ }
    · exact (hcurrent chain).trans (hmid.holds chain)
    · show (universes.chains.map (·.chain)).Nodup
      rw [hchains]
      exact hmid.distinct
  · exact hnames.trans hchains.symm
  · intro chain hactive
    have hmem : chain ∈ universes.chains.map (·.chain) := ActiveUniverses.contains_iff.1 hactive
    rw [hchains] at hmem
    obtain ⟨entry, hentry, rfl⟩ := List.mem_map.1 hmem
    obtain ⟨contract, hfronts, hfound, hchange⟩ := hselected entry hentry
    refine ⟨contract, hfronts, ActiveUniverses.selected_of_find? hfound, ?_⟩
    have hbefore : entry.selected = b.manager.universes.selected entry.chain := by
      rw [← ActiveUniverses.selected_of_find? (hmid.distinct.find?_of_mem hentry),
        SelectionManager.universes_step hstep, ActiveUniverses.selected_addAll]
    rwa [← hbefore]

/-- Cycles keep the backtest tracked and every active chain with its front contract. -/
theorem Rolls.tracked {start : Backtest} (hrolls : start.Rolls months b) (hmax : 30 ≤ maxDays)
    (hmonths : 2 ≤ months) (hstart : start.Tracked maxDays [])
    (hempty : start.manager.universes.chains = []) :
    (∃ log, b.Tracked maxDays log) ∧ ∀ chain, b.manager.universes.contains chain = true →
      ∃ contract, b.engine.Fronts chain contract ∧
        b.manager.universes.selected chain = [contract] := by
  induction hrolls with
  | refl =>
      refine ⟨⟨[], hstart⟩, fun chain hactive => ?_⟩
      rw [ActiveUniverses.contains_iff, hempty] at hactive
      cases hactive
  | @cycle mid after now report hrolls hahead hcycle ih =>
      obtain ⟨⟨log, hmid⟩, -⟩ := ih
      obtain ⟨manager, hstep, -⟩ := cycle_eq_ok hcycle
      obtain ⟨changes, last, more, hlast, htracked, -, -, -, hfronts⟩ :=
        (hmid.setClock now).cycle hmax hmonths hahead hstep
      obtain ⟨-, rfl⟩ := Prod.mk.inj (Except.ok.inj (hlast.symm.trans hcycle))
      refine ⟨⟨_, htracked⟩, fun chain hactive => ?_⟩
      obtain ⟨contract, hcontract, hselected, -⟩ := hfronts chain hactive
      exact ⟨contract, hcontract, hselected⟩

/-- A backtest starts tracked in an engine that is keyed by chains. -/
theorem tracked_ofChains {e : Engine} (hkeyed : e.ChainKeyed) (chains : List Symbol)
    (interval : Duration) (maxDays : Int) : (ofChains e chains interval maxDays).Tracked maxDays []
    where
  attached := .nil hkeyed
  holds := fun _ => rfl
  distinct := List.nodup_nil
  filters := by simp
  models := by
    intro m hm
    obtain rfl := List.mem_singleton.1 hm
    exact ⟨rfl, rfl⟩

end Backtest

/-- Take a backtest that keeps some chains in force by front months of thirty days or more, and that
went through any cycles, at times at which the calendar reached a month ahead. Then one more cycle
at such a time gives an answer whenever its step does. It changes each active chain once, and leaves
it with one contract: the one on the earliest first of a month that is not before the exchange's
local date. A chain that was not active gains that contract. One that was loses the contract of its
last cycle for it, unless the two are the same. No chain ceases to be active. -/
theorem front_month_roll {facilities : Facilities} {clock now : Instant}
    {actions : List HostAction} {given : List ChainUniverse} {h : Host} {chains : List Symbol}
    {interval : Duration} {maxDays : Int} {months : Nat} {b : Backtest}
    {refreshes : List RefreshReport} {manager : SelectionManager} {engine : Engine}
    (hrun : (Host.start facilities clock).run actions = .ok (given, h))
    (hmax : 30 ≤ maxDays) (hmonths : 2 ≤ months)
    (hrolls : (Backtest.ofChains h.engine chains interval maxDays).Rolls months b)
    (hahead : (b.setClock now).monthAhead = true)
    (hstep : (b.setClock now).manager.step (b.setClock now).engine =
      .ok (refreshes, manager, engine)) :
    ∃ changes after, (b.setClock now).cycle months = .ok (⟨refreshes, changes⟩, after) ∧
      after.engine.clock = now ∧
      changes.map (·.1) = after.manager.universes.chains.map (·.chain) ∧
      (changes.map (·.1)).Nodup ∧
      (∀ chain, b.manager.universes.contains chain = true →
        after.manager.universes.contains chain = true) ∧
      ∀ chain, after.manager.universes.contains chain = true → ∃ contract diff,
        after.engine.Fronts chain contract ∧
        after.manager.universes.selected chain = [contract] ∧ (chain, diff) ∈ changes ∧
        (b.manager.universes.contains chain = false → diff = ⟨[contract], []⟩) ∧
        (b.manager.universes.contains chain = true → ∃ old, b.engine.Fronts chain old ∧
          b.manager.universes.selected chain = [old] ∧
          diff = if old = contract then .none else ⟨[contract], [old]⟩) := by
  obtain ⟨hkeyed, -⟩ := Host.run_registry hrun (.start facilities clock)
  obtain ⟨⟨log, htracked⟩, hfronts⟩ := hrolls.tracked hmax hmonths
    (Backtest.tracked_ofChains hkeyed chains interval maxDays) rfl
  obtain ⟨changes, after, more, hcycle, hafter, hclock, hnames, hchains, hnext⟩ :=
    (htracked.setClock now).cycle hmax hmonths hahead hstep
  refine ⟨changes, after, hcycle, hclock, hnames, ?_, ?_, ?_⟩
  · rw [hnames]
    exact hafter.distinct
  · intro chain hactive
    rw [ActiveUniverses.contains_iff, hchains, ← ActiveUniverses.contains_iff,
      SelectionManager.universes_step hstep]
    exact ActiveUniverses.contains_addAll _ hactive
  · intro chain hactive
    obtain ⟨contract, hcontract, hselected, hchange⟩ := hnext chain hactive
    refine ⟨contract, _, hcontract, hselected, hchange, ?_, ?_⟩
    · intro hnew
      rw [show (b.setClock now).manager = b.manager from rfl,
        ActiveUniverses.selected_of_not_contains hnew, SelectionDiff.between_nil]
    · intro hold
      obtain ⟨old, hfront, hbefore⟩ := hfronts chain hold
      refine ⟨old, hfront, hbefore, ?_⟩
      rw [show (b.setClock now).manager = b.manager from rfl, hbefore,
        SelectionDiff.between_singleton]

/-- Crude oil in the leap year 2024, with two months listed: at the end of January its contract is
February's, and on the second of February that gives way to March's. -/
theorem front_month_roll_crude_oil :
    let oil : Symbol := .undated "CL" .future .nymex
    let february : Symbol := .future "CL" .nymex { day := 19754 }
    let march : Symbol := .future "CL" .nymex { day := 19783 }
    let january : Instant := ⟨1706702400, 0, by decide⟩
    let later : Instant := ⟨1706875200, 0, by decide⟩
    ∃ b refreshes changes after,
      (Backtest.ofChains (.start (.traded .standard) default) [oil, .equity "CL" .nymex]
        (⟨3600⟩ : Span) 90).Rolls 2 b ∧
      b.engine.clock = january ∧ b.manager.universes.selected oil = [february] ∧
      (b.setClock later).cycle 2 = .ok (⟨refreshes, changes⟩, after) ∧
      (oil, ⟨[march], [february]⟩) ∈ changes ∧
      after.manager.universes.selected oil = [march] := by
  intro oil february march january later
  let start := Backtest.ofChains (.start (.traded .standard) default) [oil, .equity "CL" .nymex]
    (⟨3600⟩ : Span) 90
  have hrun : ((start.setClock january).cycle 2 >>= fun first =>
      (first.2.setClock later).cycle 2 >>= fun second =>
        ((first.2.setClock later).manager.step (first.2.setClock later).engine).map
          fun _ => ((start.setClock january).monthAhead,
            (first.2.setClock later).monthAhead, first.2.engine.clock,
            first.2.manager.universes.selected oil, second.2.manager.universes.selected oil)) =
      .ok (true, true, january, [february], [march]) := by
    decide +kernel
  simp only [Halt.bind_eq_ok] at hrun
  obtain ⟨⟨report, b⟩, hfirst, ⟨report', after⟩, hsecond, hrun⟩ := hrun
  obtain ⟨⟨refreshes, manager, engine⟩, hstep, hresult⟩ := Halt.map_eq_ok.1 hrun
  simp only [Prod.mk.injEq] at hresult
  obtain ⟨hahead, hahead', hclock, hbefore, hselected⟩ := hresult
  have hrolls : start.Rolls 2 b := .cycle january report (.refl start) hahead hfirst
  have hfresh : (Host.start (.traded .standard) default).run [] = .ok ([], _) := rfl
  obtain ⟨changes, last, hcycle, -, -, -, hkept, hchains⟩ :=
    front_month_roll hfresh (by decide) (by decide) hrolls hahead' hstep
  obtain ⟨-, rfl⟩ := Prod.mk.inj (Except.ok.inj (hcycle.symm.trans hsecond))
  have hactive : b.manager.universes.contains oil = true := by
    by_contra hinactive
    rw [ActiveUniverses.selected_of_not_contains (by simpa using hinactive)] at hbefore
    cases hbefore
  obtain ⟨contract, diff, -, hcontract, hchange, -, hrolled⟩ := hchains oil (hkept oil hactive)
  obtain ⟨old, -, hold, hdiff⟩ := hrolled hactive
  obtain rfl : march = contract := by simpa using hselected.symm.trans hcontract
  obtain rfl : february = old := by simpa using hbefore.symm.trans hold
  rw [hdiff, if_neg (by decide)] at hchange
  exact ⟨b, refreshes, changes, last, hrolls, hclock, hbefore, hcycle, hchange, hselected⟩

end FuturesChains
