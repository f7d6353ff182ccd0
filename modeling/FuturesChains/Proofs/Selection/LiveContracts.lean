import FuturesChains.Proofs.Instrument.FrontMonth
import FuturesChains.Proofs.Selection.FirstFault

/-!
# The contracts that a chain selects from

A chain gives its filter those of the available symbols that are contracts of the chain and have not
expired (`Symbol.LiveIn`). They share all but their expiry, so the order of candidates tells them
apart: the filter sees each of them once, by expiry, however often and in what order they are
available. `chain_selection_order_blind` says so, and that a filter that is composed of steps
selects some of them in that order, or waits for market open.
-/

namespace FuturesChains

namespace Symbol

/-- The symbol is a contract of a chain that has not expired on a date. -/
structure LiveIn (s chain : Symbol) (today : Date) : Prop where
  root : s.id = chain.id
  market : s.market = chain.market
  kind : s.kind = chain.kind
  unexpired : ∃ expiry, s.expiry = some expiry ∧ today ≤ expiry

/-- Both symbols expire, the first one before the second. -/
def ExpiresBefore (a b : Symbol) : Prop :=
  ∃ first second, a.expiry = some first ∧ b.expiry = some second ∧ first < second

instance : Std.Irrefl ExpiresBefore where
  irrefl a := by
    rintro ⟨first, second, hfirst, hsecond, hlt⟩
    obtain rfl := Option.some.inj (hfirst.symm.trans hsecond)
    exact Int.lt_irrefl _ hlt

instance : Std.Antisymm ExpiresBefore where
  antisymm a b := by
    rintro ⟨first, second, hfirst, hsecond, hlt⟩ ⟨later, earlier, hlater, hearlier, hgt⟩
    obtain rfl := Option.some.inj (hfirst.symm.trans hearlier)
    obtain rfl := Option.some.inj (hsecond.symm.trans hlater)
    exact absurd hlt (Int.lt_asymm hgt)

/-- Contracts of one chain are told apart by their expiry. -/
theorem LiveIn.eq_of_expiry_eq {s t chain : Symbol} {today : Date} (hs : s.LiveIn chain today)
    (ht : t.LiveIn chain today) (h : s.expiry = t.expiry) : s = t := by
  obtain ⟨id, kind, market, expiry⟩ := s
  obtain ⟨id', kind', market', expiry'⟩ := t
  obtain ⟨rfl, rfl, rfl, -⟩ := hs
  obtain ⟨rfl, rfl, rfl, -⟩ := ht
  exact congrArg _ h

end Symbol

/-- A chain takes exactly its live contracts from what is available. -/
theorem isLiveContract_iff {chain s : Symbol} {today : Date} (hchain : chain.expiry = none) :
    isLiveContract chain today s = true ↔ s.LiveIn chain today := by
  have hcanonical : s.toCanonical = chain ↔
      s.id = chain.id ∧ s.kind = chain.kind ∧ s.market = chain.market := by
    obtain ⟨id, kind, market, expiry⟩ := chain
    obtain rfl := hchain
    simp [Symbol.toCanonical, Symbol.undated]
  unfold isLiveContract
  rw [Bool.and_eq_true, decide_eq_true_eq, hcanonical]
  constructor
  · rintro ⟨⟨hroot, hkind, hmarket⟩, hexpiry⟩
    split at hexpiry
    · rename_i expiry hsome
      exact ⟨hroot, hmarket, hkind, expiry, hsome, of_decide_eq_true hexpiry⟩
    · cases hexpiry
  · rintro ⟨hroot, hmarket, hkind, expiry, hsome, hle⟩
    rw [hsome]
    exact ⟨⟨hroot, hkind, hmarket⟩, decide_eq_true hle⟩

namespace Security

/-- The universe that a security gives to its filter. -/
def candidates (s : Security) (today : Date) (available : List Symbol) : FilterUniverse :=
  .ofContracts (available.filter (isLiveContract s.symbol today)) today

variable {s : Security} {today : Date} {available : List Symbol}

theorem mem_candidates (hchain : s.symbol.expiry = none) {t : Symbol} :
    t ∈ (s.candidates today available).contracts ↔ t ∈ available ∧ t.LiveIn s.symbol today := by
  rw [candidates, FilterUniverse.mem_ofContracts, List.mem_filter, isLiveContract_iff hchain]

/-- No two live contracts tie, so each is a candidate once, and they stand in strictly ascending
order of expiry. -/
theorem pairwise_candidates (hchain : s.symbol.expiry = none) :
    (s.candidates today available).contracts.Pairwise Symbol.ExpiresBefore := by
  have hlive : ∀ t ∈ available.filter (isLiveContract s.symbol today),
      t.LiveIn s.symbol today := fun t ht => (isLiveContract_iff hchain).1 (List.mem_filter.1 ht).2
  have hnodup : (s.candidates today available).contracts.Nodup := by
    refine FilterUniverse.nodup_ofContracts_iff.2 fun a b hbetween hexpiry _ => ?_
    have ha := hlive a (hbetween.subset (by simp))
    have hb := hlive b (hbetween.subset (by simp))
    exact ha.eq_of_expiry_eq hb hexpiry
  have hsorted := FilterUniverse.pairwise_ofContracts
    (available.filter (isLiveContract s.symbol today)) today
  refine (hsorted.and hnodup).imp_of_mem ?_
  rintro a b ha hb ⟨hab, hne⟩
  have ha := ((mem_candidates hchain).1 ha).2
  have hb := ((mem_candidates hchain).1 hb).2
  obtain ⟨first, hfirst, -⟩ := ha.unexpired
  obtain ⟨second, hsecond, -⟩ := hb.unexpired
  have hle := FilterUniverse.expiry_le_of_inOrder hab hfirst hsecond
  refine ⟨first, second, hfirst, hsecond, Int.lt_iff_le_and_ne.2 ⟨hle, fun heq => ?_⟩⟩
  refine hne (ha.eq_of_expiry_eq hb ?_)
  rw [hfirst, hsecond, Date.eq_of_day_eq heq]

/-- Only the live contracts of a chain decide on the universe that its filter is given. -/
theorem candidates_congr {other : List Symbol} (hchain : s.symbol.expiry = none)
    (h : ∀ t, t.LiveIn s.symbol today → (t ∈ other ↔ t ∈ available)) :
    s.candidates today other = s.candidates today available := by
  have hcontracts : (s.candidates today other).contracts =
      (s.candidates today available).contracts := by
    refine (pairwise_candidates hchain).eq_of_mem_iff (pairwise_candidates hchain) fun t => ?_
    rw [mem_candidates hchain, mem_candidates hchain]
    exact and_congr_left fun hlive => h t hlive
  exact congrArg (FilterUniverse.mk · today false) hcontracts

/-- A security with a local date gives its filter the candidates of that date, and has its answer
unless the filter waits for market open. -/
theorem select_eq {now : Instant} {isOpen : Bool} (htoday : s.hours.localDate? now = some today)
    (hopen : s.hours.isOpen? .both now = some isOpen) (available : List Symbol) :
    s.select now available =
      let selected := s.filter.apply (s.candidates today available)
      .ok (if selected.onlyAtMarketOpen && !isOpen then none else some selected.contracts) := by
  simp only [select, htoday, hopen]
  rfl

end Security

/-- A step asks for market open if it is the one that does. -/
theorem FilterStep.onlyAtMarketOpen_apply (u : FilterUniverse) {step : FilterStep}
    (h : step.narrows = true) :
    (step.apply u).onlyAtMarketOpen = true ↔ u.onlyAtMarketOpen = true ∨ step = .marketOpen := by
  cases step with
  | expiration minDays maxDays =>
      simp [FilterStep.apply, FilterUniverse.expiration, FilterUniverse.keep]
  | frontMonth =>
      simp only [FilterStep.apply, FilterUniverse.onlyAtMarketOpen_frontMonth]
      simp
  | backMonths =>
      simp only [FilterStep.apply, FilterUniverse.backMonths]
      split <;> simp [FilterUniverse.keep]
  | marketOpen => simp [FilterStep.apply, FilterUniverse.atMarketOpen]
  | contracts test => simp [FilterStep.apply, FilterUniverse.keep]
  | replace symbols => cases h

/-- Steps that narrow ask for market open if one of them does. -/
theorem FilterStep.onlyAtMarketOpen_foldl (u : FilterUniverse) {steps : List FilterStep}
    (h : ∀ step ∈ steps, step.narrows = true) :
    (steps.foldl FilterStep.apply u).onlyAtMarketOpen = true ↔
      u.onlyAtMarketOpen = true ∨ .marketOpen ∈ steps := by
  induction steps generalizing u with
  | nil => simp
  | cons step steps ih =>
      obtain ⟨hstep, hsteps⟩ := List.forall_mem_cons.1 h
      rw [List.foldl_cons, ih (step.apply u) hsteps, onlyAtMarketOpen_apply u hstep,
        List.mem_cons, or_assoc, eq_comm (a := step)]

/-- A filter does what steps do that narrow, one after the other. -/
structure ContractFilter.ComposedOf (filter : ContractFilter) (steps : List FilterStep) : Prop where
  narrows : ∀ step ∈ steps, step.narrows = true
  apply_eq : ∀ u, filter.apply u = steps.foldl FilterStep.apply u

/-- A filter that is composed of steps waits exactly if one of them asks for market open and the
exchange is closed, and otherwise selects a part of the candidates in their order. -/
theorem Security.select_of_composedOf {s : Security} {now : Instant} {today : Date} {isOpen : Bool}
    {steps : List FilterStep} (hchain : s.symbol.expiry = none)
    (htoday : s.hours.localDate? now = some today) (hopen : s.hours.isOpen? .both now = some isOpen)
    (hsteps : s.filter.ComposedOf steps) (available : List Symbol) :
    (s.select now available = .ok none ↔ .marketOpen ∈ steps ∧ isOpen = false) ∧
      ∀ contracts, s.select now available = .ok (some contracts) →
        contracts.Sublist (s.candidates today available).contracts ∧
          contracts.Pairwise Symbol.ExpiresBefore := by
  let given := s.candidates today available
  have hasks : (steps.foldl FilterStep.apply given).onlyAtMarketOpen = true ↔
      .marketOpen ∈ steps := by
    rw [FilterStep.onlyAtMarketOpen_foldl given hsteps.narrows]
    exact or_iff_right nofun
  rw [select_eq htoday hopen, hsteps.apply_eq]
  constructor
  · rw [← hasks]
    cases isOpen <;> simp [given]
  · intro contracts hcontracts
    dsimp only at hcontracts
    split at hcontracts
    · cases hcontracts
    · cases hcontracts
      have hpart := FilterStep.foldl_apply_sublist given hsteps.narrows
      exact ⟨hpart, (pairwise_candidates hchain).sublist hpart⟩

/-- A chain with a local date gives its filter the live ones of the symbols that are available, each
once and in strictly ascending order of expiry. So whatever the filter is, what else is available
and in which order has no part in the selection. A filter that is composed of steps leaves it
undecided exactly if a step asks for market open while the exchange is closed, and otherwise selects
some of the live contracts in their order. -/
theorem chain_selection_order_blind {u : ChainUniverse} {r : Registry} {s : Security}
    (hheld : r.security? u.security = some s) (hchain : s.symbol.expiry = none) (now : Instant) :
    match s.hours.localDate? now with
    | none => ∀ available, u.select r now available = .error .localTimeOutOfRange
    | some today => ∃ isOpen, s.hours.isOpen? .both now = some isOpen ∧ ∀ available,
        let given := s.candidates today available
        let selected := s.filter.apply given
        (given.localDate = today ∧ given.onlyAtMarketOpen = false ∧
          (∀ t, t ∈ given.contracts ↔ t ∈ available ∧ t.LiveIn s.symbol today) ∧
          given.contracts.Pairwise Symbol.ExpiresBefore) ∧
        u.select r now available =
          .ok (if selected.onlyAtMarketOpen && !isOpen then none else some selected.contracts) ∧
        (∀ other, (∀ t, t.LiveIn s.symbol today → (t ∈ other ↔ t ∈ available)) →
          u.select r now other = u.select r now available) ∧
        ∀ steps, s.filter.ComposedOf steps →
          (u.select r now available = .ok none ↔ .marketOpen ∈ steps ∧ isOpen = false) ∧
            ∀ contracts, u.select r now available = .ok (some contracts) →
              contracts.Sublist given.contracts ∧ contracts.Pairwise Symbol.ExpiresBefore := by
  have hselect : ∀ available, u.select r now available = s.select now available := by
    intro available
    simp only [ChainUniverse.select, hheld]
  simp only [hselect]
  cases htoday : s.hours.localDate? now with
  | none =>
      intro available
      simp only [Security.select, htoday]
      rfl
  | some today =>
      have hsome : (s.hours.isOpen? .both now).isSome = true := by
        rw [MarketHours.isSome_isOpen?, htoday]
        rfl
      obtain ⟨isOpen, hopen⟩ := Option.isSome_iff_exists.1 hsome
      refine ⟨isOpen, hopen, fun available => ?_⟩
      have hanswer := Security.select_eq htoday hopen
      refine ⟨⟨rfl, rfl, fun t => Security.mem_candidates hchain,
        Security.pairwise_candidates hchain⟩, hanswer available, fun other hother => ?_,
        fun steps hsteps => Security.select_of_composedOf hchain htoday hopen hsteps available⟩
      rw [hanswer, hanswer, Security.candidates_congr hchain hother]

/-- On a Monday in January 2024 the front month of crude oil is February's contract, whatever else
is listed, and on the Saturday before the selection waits. -/
theorem chain_selection_order_blind_crude_oil :
    let oil : Symbol := .undated "CL" .future .nymex
    let expired : Symbol := .future "CL" .nymex { day := 19723 }
    let february : Symbol := .future "CL" .nymex { day := 19754 }
    let march : Symbol := .future "CL" .nymex { day := 19783 }
    let elsewhere : Symbol := .future "CL" .cme { day := 19754 }
    let listed := [march, expired, february, elsewhere, oil, march]
    let m : SelectionModel :=
      { SelectionModel.ofSelector (⟨60⟩ : Span) (.standing [oil]) with
        filter := .steps "at open, front month" [.marketOpen, .frontMonth] }
    let saturday : Instant := ⟨1704553200, 0, by decide⟩
    let monday : Instant := ⟨1704726000, 0, by decide⟩
    ∃ u e, m.resolve ⟨default, .standard⟩ (.start (.traded .standard) default) oil =
        .ok (.ok u, e) ∧
      u.select e.registry saturday listed = .ok none ∧
      u.select e.registry monday listed = .ok (some [february]) ∧
      u.select e.registry monday [february, march] = .ok (some [february]) := by
  intro oil expired february march elsewhere listed m saturday monday
  let isLocally (s : Security) (now : Instant) (date : Date) (isOpen : Bool) : Bool :=
    s.hours.localDate? now = some date && s.hours.isOpen? .both now = some isOpen
  have hrun : (m.resolve ⟨default, .standard⟩ (.start (.traded .standard) default) oil).map
      (fun result => (result.1.toOption.map (·.security),
        (result.2.registry.security? ⟨0⟩).any fun s => s.symbol = oil &&
          isLocally s saturday { day := 19728 } false &&
          isLocally s monday { day := 19730 } true)) =
      .ok (some ⟨0⟩, true) := by
    decide +kernel
  obtain ⟨⟨outcome, e⟩, hresolve, hresult⟩ := Halt.map_eq_ok.1 hrun
  simp only [Prod.mk.injEq, Option.map_eq_some_iff, Option.any_eq_true] at hresult
  obtain ⟨⟨u, hgiven, hid⟩, s, hheld, hlocal⟩ := hresult
  simp only [isLocally, Bool.and_eq_true, decide_eq_true_eq] at hlocal
  obtain ⟨⟨hsymbol, hsaturdayDate, hclosed⟩, hmondayDate, hopen⟩ := hlocal
  cases outcome with
  | error error => cases hgiven
  | ok given =>
      obtain rfl : given = u := Option.some.inj hgiven
      rw [← hid] at hheld
      have hfilter : s.filter = m.filter :=
        (congrArg (·.filter) ((resolve_iff.1 hresolve).settled.attached s hheld)).symm
      have hsteps : s.filter.ComposedOf [.marketOpen, .frontMonth] := by
        rw [hfilter]
        exact ⟨by decide, fun _ => rfl⟩
      have hchain : s.symbol.expiry = none := by
        rw [hsymbol]
        rfl
      have hsaturday := chain_selection_order_blind hheld hchain saturday
      have hmonday := chain_selection_order_blind hheld hchain monday
      rw [hsaturdayDate, hclosed] at hsaturday
      rw [hmondayDate, hopen] at hmonday
      obtain ⟨isOpen, hisOpen, hsaturday⟩ := hsaturday
      obtain ⟨isOpen', hisOpen', hmonday⟩ := hmonday
      obtain rfl := Option.some.inj hisOpen
      obtain rfl := Option.some.inj hisOpen'
      obtain ⟨-, hanswer, hsame, -⟩ := hmonday listed
      have hselected : (s.filter.apply (s.candidates { day := 19730 } listed)) =
          ⟨[february], { day := 19730 }, true⟩ := by
        rw [hfilter, Security.candidates, hsymbol]
        cbv
      rw [hselected] at hanswer
      have hlive : ∀ t ∈ listed, isLiveContract oil { day := 19730 } t = true →
          t ∈ [february, march] := by
        decide
      have hlisted : ∀ t ∈ [february, march], t ∈ listed := by decide
      have hwaits := ((hsaturday listed).2.2.2 _ hsteps).1.2 ⟨by simp, rfl⟩
      refine ⟨given, e, hresolve, hwaits, hanswer, ?_⟩
      rw [hsame _ fun t ht => ⟨hlisted t, fun hmem => hlive t hmem ?_⟩]
      · exact hanswer
      · rw [← hsymbol]
        exact (isLiveContract_iff hchain).2 ht

end FuturesChains
