import FuturesChains.Proofs.Instrument.ExpiryWindow

/-!
# Front and back months

The front month of a universe is read off its first contract, which is one of the nearest expiry if
every contract has an expiry. Then the front month and the back months are the two parts of the
universe before and behind a cut, and dropping the front month k times leaves the universe without
its k nearest expiries: `FilterUniverse.SplitsByExpiry`. A contract without an expiry comes first
and hides the expiries of the others, so both operations leave the universe as it is.
`FilterUniverse.splitsByExpiry_iff` says that of each universe that steps of a filter lead to.
-/

namespace FuturesChains

/-- What passes a test comes first, if nothing that fails stands before something that passes. -/
theorem filter_append_filter_not {α : Type} {test : α → Bool} {items : List α}
    (h : items.Pairwise fun a b => test b = true → test a = true) :
    items.filter test ++ items.filter (fun a => !test a) = items := by
  induction items with
  | nil => rfl
  | cons first rest ih =>
      obtain ⟨hfirst, hrest⟩ := List.pairwise_cons.1 h
      by_cases htest : test first = true
      · simpa [htest] using ih hrest
      · have hfail : ∀ a ∈ rest, ¬ test a = true := fun a ha hpass => htest (hfirst a ha hpass)
        have hnone : rest.filter test = [] := List.filter_eq_nil_iff.2 hfail
        have hall : rest.filter (fun a => !test a) = rest :=
          List.filter_eq_self.2 fun a ha => by simpa using hfail a ha
        simp [htest, hnone, hall]

/-- The number of the day that the symbol expires on. -/
def Symbol.expiryDay? (s : Symbol) : Option Int := s.expiry.map (·.day)

theorem Symbol.expiryDay?_eq_some_iff {s : Symbol} {date : Date} :
    s.expiryDay? = some date.day ↔ s.expiry = some date := by
  have hday : Function.Injective Date.day := fun _ _ => Date.eq_of_day_eq
  exact (Option.map_injective hday).eq_iff (b := some date)

namespace FilterUniverse

/-- Every contract has an expiry. -/
def IsDated (u : FilterUniverse) : Prop := ∀ s ∈ u.contracts, s.expiry.isSome = true

/-- The contracts stand in the order of candidates. -/
def InOrder (u : FilterUniverse) : Prop := u.contracts.Pairwise fun a b => inOrder a b = true

/-- The days that contracts expire on, each once and in ascending order. -/
def expiryDays (u : FilterUniverse) : List Int :=
  (u.contracts.filterMap Symbol.expiryDay?).toFinset.sort (· ≤ ·)

/-- Front month and back months split a universe by its expiries. The front month is of the nearest
one, the back months are what stands behind it, and after some of the nearest expiries are dropped
the front month is of the next one, as long as there is one. -/
structure SplitsByExpiry (u : FilterUniverse) : Prop where
  front : ∀ s ∈ u.frontMonth.contracts, ∃ first, s.expiry = some first ∧
    ∀ other ∈ u.contracts, ∀ date, other.expiry = some date → first ≤ date
  apart : u.frontMonth.contracts.Disjoint u.backMonths.contracts
  together : u.frontMonth.contracts ++ u.backMonths.contracts = u.contracts
  settled : u.frontMonth.frontMonth = u.frontMonth
  inTurn : ∀ k, (backMonths^[k] u).frontMonth.contracts =
    match u.expiryDays[k]? with
    | some day => u.contracts.filter (·.expiryDay? = some day)
    | none => []

variable {u : FilterUniverse} {first : Date}

theorem InOrder.keep (h : u.InOrder) (test : Symbol → Bool) : (u.keep test).InOrder :=
  List.Pairwise.filter test h

theorem IsDated.keep (h : u.IsDated) (test : Symbol → Bool) : (u.keep test).IsDated :=
  fun s hs => h s (List.mem_filter.1 hs).1

/-- No contract expires before the first one, and none of those in front of a contract without an
expiry has one. -/
theorem InOrder.nearest?_le (h : u.InOrder) {s : Symbol} (hs : s ∈ u.contracts) :
    u.nearest? ≤ s.expiry := by
  unfold InOrder at h
  unfold nearest?
  cases hlist : u.contracts with
  | nil =>
      rw [hlist] at hs
      cases hs
  | cons head rest =>
      rw [hlist] at h hs
      show head.expiry ≤ s.expiry
      rcases List.mem_cons.1 hs with rfl | hs
      · exact ((inOrder_iff_precedes s s).1 (by simpa using inOrder_total s s)).expiry
      · exact ((inOrder_iff_precedes head s).1 ((List.pairwise_cons.1 h).1 s hs)).expiry

theorem InOrder.le_of_nearest? (h : u.InOrder) (hnearest : u.nearest? = some first) {s : Symbol}
    (hs : s ∈ u.contracts) {date : Date} (hdate : s.expiry = some date) : first ≤ date := by
  have hle := h.nearest?_le hs
  rw [hnearest, hdate] at hle
  exact Option.some_le_some.1 hle

theorem InOrder.nearest?_eq_none (h : u.InOrder) {s : Symbol} (hs : s ∈ u.contracts)
    (hundated : s.expiry = none) : u.nearest? = none := by
  have hle := h.nearest?_le hs
  rw [hundated] at hle
  exact Option.le_none.1 hle

/-- With a nearest expiry every contract has an expiry. -/
theorem InOrder.isDated (h : u.InOrder) (hnearest : u.nearest? = some first) : u.IsDated := by
  intro s hs
  rw [Option.isSome_iff_ne_none]
  intro hundated
  rw [h.nearest?_eq_none hs hundated] at hnearest
  cases hnearest

theorem IsDated.contracts_eq_nil (h : u.IsDated) (hnearest : u.nearest? = none) :
    u.contracts = [] := by
  unfold nearest? at hnearest
  cases hlist : u.contracts with
  | nil => rfl
  | cons head rest =>
      have hdated := h head (by simp [hlist])
      rw [hlist] at hnearest
      rw [show head.expiry = none from hnearest] at hdated
      cases hdated

theorem mem_of_nearest? (h : u.nearest? = some first) :
    ∃ s ∈ u.contracts, s.expiry = some first := by
  obtain ⟨s, hs, hexpiry⟩ := Option.bind_eq_some_iff.1 h
  exact ⟨s, List.mem_of_head? hs, hexpiry⟩

theorem frontMonth_of_nearest? (h : u.nearest? = some first) :
    u.frontMonth = u.keep (·.expiry = some first) := by
  simp only [frontMonth, h]

theorem backMonths_of_nearest? (h : u.nearest? = some first) :
    u.backMonths = u.keep (·.expiry ≠ some first) := by
  simp only [backMonths, h]

/-- Without a nearest expiry neither operation changes the universe. -/
theorem months_of_nearest?_eq_none (h : u.nearest? = none) :
    u.frontMonth = u ∧ u.backMonths = u := by
  simp only [frontMonth, backMonths, h, and_self]

theorem frontMonth_frontMonth (u : FilterUniverse) : u.frontMonth.frontMonth = u.frontMonth := by
  cases hnearest : u.nearest? with
  | none =>
      obtain ⟨hfront, -⟩ := months_of_nearest?_eq_none hnearest
      rw [hfront, hfront]
  | some first =>
      obtain ⟨s, hs, hexpiry⟩ := Option.bind_eq_some_iff.1 hnearest
      obtain ⟨rest, hlist⟩ := List.head?_eq_some_iff.1 hs
      have hagain : u.frontMonth.nearest? = some first := by
        rw [frontMonth_of_nearest? hnearest]
        simp [nearest?, FilterUniverse.keep, hlist, hexpiry]
      rw [frontMonth_of_nearest? hagain, frontMonth_of_nearest? hnearest, keep_keep]
      simp only [Bool.and_self]

/-- The contracts of the nearest expiry come first. -/
theorem InOrder.frontMonth_append_backMonths (h : u.InOrder) (hnearest : u.nearest? = some first) :
    u.frontMonth.contracts ++ u.backMonths.contracts = u.contracts := by
  rw [frontMonth_of_nearest? hnearest, backMonths_of_nearest? hnearest]
  simp only [FilterUniverse.keep, ne_eq, decide_not]
  refine filter_append_filter_not (List.Pairwise.imp_of_mem ?_ h)
  intro a b ha hb hab hexpiry
  have hexpiry := of_decide_eq_true hexpiry
  obtain ⟨date, hdate⟩ := Option.isSome_iff_exists.1 (h.isDated hnearest a ha)
  have hge := h.le_of_nearest? hnearest ha hdate
  -- a contract in front of one of the nearest expiry is of the nearest expiry too
  have hle := expiry_le_of_inOrder hab hdate hexpiry
  have hsame : date = first := Date.eq_of_day_eq (Int.le_antisymm hle hge)
  rw [hdate, hsame]
  exact decide_eq_true rfl

theorem disjoint_months (h : u.nearest? = some first) :
    u.frontMonth.contracts.Disjoint u.backMonths.contracts := by
  rw [frontMonth_of_nearest? h, backMonths_of_nearest? h]
  intro s hfront hback
  have hexpiry := of_decide_eq_true (List.mem_filter.1 hfront).2
  exact of_decide_eq_true (List.mem_filter.1 hback).2 hexpiry

theorem mem_expiryDays {day : Int} :
    day ∈ u.expiryDays ↔ ∃ s ∈ u.contracts, s.expiryDay? = some day := by
  rw [expiryDays, Finset.mem_sort, List.mem_toFinset, List.mem_filterMap]

theorem IsDated.expiryDays_eq_nil (h : u.IsDated) (hnearest : u.nearest? = none) :
    u.expiryDays = [] := by
  rw [List.eq_nil_iff_forall_not_mem]
  intro day hday
  obtain ⟨s, hs, -⟩ := mem_expiryDays.1 hday
  rw [h.contracts_eq_nil hnearest] at hs
  cases hs

/-- The back months are without the contracts of the nearest expiry, and have all others. -/
theorem mem_expiryDays_backMonths (hnearest : u.nearest? = some first) {day : Int} :
    day ∈ u.backMonths.expiryDays ↔ day ∈ u.expiryDays ∧ day ≠ first.day := by
  have hback : ∀ s, s ∈ u.backMonths.contracts ↔
      s ∈ u.contracts ∧ s.expiryDay? ≠ some first.day := by
    intro s
    rw [backMonths_of_nearest? hnearest, ne_eq, Symbol.expiryDay?_eq_some_iff]
    simp [FilterUniverse.keep]
  rw [mem_expiryDays, mem_expiryDays]
  constructor
  · rintro ⟨s, hs, hday⟩
    obtain ⟨hs, hne⟩ := (hback s).1 hs
    rw [hday, ne_eq, Option.some.injEq] at hne
    exact ⟨⟨s, hs, hday⟩, hne⟩
  · rintro ⟨⟨s, hs, hday⟩, hne⟩
    refine ⟨s, (hback s).2 ⟨hs, ?_⟩, hday⟩
    rw [hday, ne_eq, Option.some.injEq]
    exact hne

/-- The nearest day is the first one, and the back months expire on those behind it. -/
theorem InOrder.expiryDays_eq_cons (h : u.InOrder) (hnearest : u.nearest? = some first) :
    u.expiryDays = first.day :: u.backMonths.expiryDays := by
  have hfirst : first.day ∈ u.expiryDays := by
    obtain ⟨s, hs, hexpiry⟩ := mem_of_nearest? hnearest
    exact mem_expiryDays.2 ⟨s, hs, Symbol.expiryDay?_eq_some_iff.2 hexpiry⟩
  have hleast : ∀ day ∈ u.expiryDays, first.day ≤ day := by
    intro day hday
    obtain ⟨s, hs, hday⟩ := mem_expiryDays.1 hday
    obtain ⟨date, hdate, rfl⟩ := Option.map_eq_some_iff.1 hday
    exact h.le_of_nearest? hnearest hs hdate
  have hback : ∀ day, day ∈ (u.backMonths.contracts.filterMap Symbol.expiryDay?).toFinset ↔
      day ∈ u.expiryDays ∧ day ≠ first.day := by
    intro day
    rw [← mem_expiryDays_backMonths hnearest, expiryDays, Finset.mem_sort]
  have hdays : (u.contracts.filterMap Symbol.expiryDay?).toFinset =
      insert first.day (u.backMonths.contracts.filterMap Symbol.expiryDay?).toFinset := by
    ext day
    rw [Finset.mem_insert, hback, ← Finset.mem_sort (· ≤ ·)]
    show day ∈ u.expiryDays ↔ _
    constructor
    · intro hday
      exact (eq_or_ne day first.day).imp_right fun hne => ⟨hday, hne⟩
    · rintro (rfl | ⟨hday, -⟩)
      · exact hfirst
      · exact hday
  unfold expiryDays
  rw [hdays]
  exact Finset.sort_insert _ (fun day hday => hleast day ((hback day).1 hday).1)
    fun hmem => ((hback _).1 hmem).2 rfl

/-- Dropping the nearest expiry leaves the contracts of each other day. -/
theorem filter_backMonths (hnearest : u.nearest? = some first) {day : Int} (hne : day ≠ first.day) :
    u.backMonths.contracts.filter (·.expiryDay? = some day) =
      u.contracts.filter (·.expiryDay? = some day) := by
  rw [backMonths_of_nearest? hnearest]
  simp only [FilterUniverse.keep, List.filter_filter]
  refine List.filter_congr fun s _ => ?_
  rw [Bool.eq_iff_iff, Bool.and_eq_true, decide_eq_true_eq, decide_eq_true_eq, ne_eq,
    ← Symbol.expiryDay?_eq_some_iff, and_iff_left_iff_imp]
  intro hday
  rw [hday, Option.some.injEq]
  exact hne

/-- A universe without contracts has no front month, however often its months are dropped. -/
theorem IsDated.frontMonth_iterate_of_nearest?_eq_none (h : u.IsDated)
    (hnearest : u.nearest? = none) (k : Nat) : (backMonths^[k] u).frontMonth.contracts = [] := by
  obtain ⟨hfront, hback⟩ := months_of_nearest?_eq_none hnearest
  rw [Function.iterate_fixed hback, hfront, h.contracts_eq_nil hnearest]

/-- After some of the nearest expiries are dropped the front month is of the next one. -/
theorem frontMonth_iterate_backMonths (hsorted : u.InOrder) (hdated : u.IsDated) (k : Nat) :
    (backMonths^[k] u).frontMonth.contracts =
      match u.expiryDays[k]? with
      | some day => u.contracts.filter (·.expiryDay? = some day)
      | none => [] := by
  induction k generalizing u with
  | zero =>
      cases hnearest : u.nearest? with
      | none =>
          rw [hdated.expiryDays_eq_nil hnearest]
          exact hdated.frontMonth_iterate_of_nearest?_eq_none hnearest 0
      | some first =>
          rw [hsorted.expiryDays_eq_cons hnearest]
          show u.frontMonth.contracts = u.contracts.filter (·.expiryDay? = some first.day)
          rw [frontMonth_of_nearest? hnearest]
          simp only [FilterUniverse.keep, Symbol.expiryDay?_eq_some_iff]
  | succ k ih =>
      -- the first drop takes the nearest day off the list, and the others drop from what is left
      cases hnearest : u.nearest? with
      | none =>
          rw [hdated.expiryDays_eq_nil hnearest]
          exact hdated.frontMonth_iterate_of_nearest?_eq_none hnearest (k + 1)
      | some first =>
          have hback := backMonths_of_nearest? hnearest
          rw [Function.iterate_succ_apply, ih (hback ▸ hsorted.keep _) (hback ▸ hdated.keep _),
            hsorted.expiryDays_eq_cons hnearest, List.getElem?_cons_succ]
          cases hday : u.backMonths.expiryDays[k]? with
          | none => rfl
          | some day =>
              obtain ⟨-, hne⟩ := (mem_expiryDays_backMonths hnearest).1 (List.mem_of_getElem? hday)
              exact filter_backMonths hnearest hne

/-- A universe in order splits by expiry if every contract has one. -/
theorem InOrder.splitsByExpiry (hsorted : u.InOrder) (hdated : u.IsDated) : u.SplitsByExpiry where
  front := by
    intro s hs
    cases hnearest : u.nearest? with
    | none =>
        rw [(months_of_nearest?_eq_none hnearest).1, hdated.contracts_eq_nil hnearest] at hs
        cases hs
    | some first =>
        rw [frontMonth_of_nearest? hnearest] at hs
        refine ⟨first, of_decide_eq_true (List.mem_filter.1 hs).2, ?_⟩
        intro other hother date hdate
        exact hsorted.le_of_nearest? hnearest hother hdate
  apart := by
    cases hnearest : u.nearest? with
    | none =>
        rw [(months_of_nearest?_eq_none hnearest).1, hdated.contracts_eq_nil hnearest]
        exact List.disjoint_nil_left _
    | some first => exact disjoint_months hnearest
  together := by
    cases hnearest : u.nearest? with
    | none =>
        obtain ⟨hfront, hback⟩ := months_of_nearest?_eq_none hnearest
        rw [hfront, hback, hdated.contracts_eq_nil hnearest]
        rfl
    | some first => exact hsorted.frontMonth_append_backMonths hnearest
  settled := frontMonth_frontMonth u
  inTurn := frontMonth_iterate_backMonths hsorted hdated

end FilterUniverse

/-- Every step of a filter keeps the order of candidates. -/
theorem FilterStep.inOrder_apply {u : FilterUniverse} (h : u.InOrder) (step : FilterStep) :
    (step.apply u).InOrder := by
  by_cases hnarrows : step.narrows = true
  · exact List.Pairwise.sublist (apply_sublist u hnarrows) h
  · cases step with
    | replace symbols => exact FilterUniverse.pairwise_ofContracts symbols u.localDate
    | _ => exact absurd rfl hnarrows

/-- Universes that steps of a filter lead to are in order. -/
theorem FilterStep.inOrder_foldl {u : FilterUniverse} (h : u.InOrder) (steps : List FilterStep) :
    (steps.foldl FilterStep.apply u).InOrder := by
  induction steps generalizing u with
  | nil => exact h
  | cons step steps ih => exact ih (inOrder_apply h step)

/-- Whatever contracts a universe is made of and whatever steps of a filter follow, it splits by
expiry if and only if every contract in it has one. If one has none, front month and back months
both keep all of the universe. -/
theorem FilterUniverse.splitsByExpiry_iff (contracts : List Symbol) (today : Date)
    (steps : List FilterStep) :
    let u := steps.foldl FilterStep.apply (ofContracts contracts today)
    (u.SplitsByExpiry ↔ ∀ s ∈ u.contracts, s.expiry.isSome = true) ∧
      ((∃ s ∈ u.contracts, s.expiry = none) → u.frontMonth = u ∧ u.backMonths = u) := by
  intro u
  have hsorted : u.InOrder :=
    FilterStep.inOrder_foldl (pairwise_ofContracts contracts today) steps
  have hundated : (∃ s ∈ u.contracts, s.expiry = none) → u.frontMonth = u ∧ u.backMonths = u := by
    rintro ⟨s, hs, hnone⟩
    exact months_of_nearest?_eq_none (hsorted.nearest?_eq_none hs hnone)
  refine ⟨⟨fun hsplits s hs => ?_, hsorted.splitsByExpiry⟩, hundated⟩
  rw [Option.isSome_iff_ne_none]
  intro hnone
  obtain ⟨hfront, hback⟩ := hundated ⟨s, hs, hnone⟩
  have hapart := hsplits.apart
  rw [hfront, hback] at hapart
  exact hapart hs hs

/-- Crude oil of three months, the first one on two exchanges: within a year the second front month
is March, and there is no third one. -/
theorem FilterUniverse.splitsByExpiry_iff_crude_oil :
    let february : Symbol := .future "CL" .nymex { day := 19754 }
    let elsewhere : Symbol := .future "CL" .cme { day := 19754 }
    let march : Symbol := .future "CL" .nymex { day := 19783 }
    let distant : Symbol := .future "CL" .nymex { day := 20500 }
    let u := [FilterStep.expiration 0 365].foldl FilterStep.apply
      (ofContracts [distant, march, february, elsewhere] { day := 19730 })
    u.frontMonth.contracts = [february, elsewhere] ∧
      (backMonths^[1] u).frontMonth.contracts = [march] ∧
      ∀ k, 2 ≤ k → (backMonths^[k] u).frontMonth.contracts = [] := by
  intro february elsewhere march distant u
  have hcontracts : u.contracts = [february, elsewhere, march] := by cbv
  have hdated : ∀ s ∈ u.contracts, s.expiry.isSome = true := by
    rw [hcontracts]
    decide
  have hsplits : u.SplitsByExpiry := (splitsByExpiry_iff [distant, march, february, elsewhere]
    { day := 19730 } [.expiration 0 365]).1.2 hdated
  have hdays : u.expiryDays = [19754, 19783] := by
    rw [expiryDays, hcontracts]
    cbv
  refine ⟨?_, ?_, fun k hk => ?_⟩
  · have hfirst := hsplits.inTurn 0
    rw [hdays, hcontracts] at hfirst
    exact hfirst
  · have hsecond := hsplits.inTurn 1
    rw [hdays, hcontracts] at hsecond
    exact hsecond
  · have hlater := hsplits.inTurn k
    rw [hdays, List.getElem?_eq_none (by simpa using hk)] at hlater
    exact hlater

/-- With the chain itself among the contracts nothing is split off: front month and back months both
keep the chain and February. -/
theorem FilterUniverse.undated_hides_expiries :
    let chain : Symbol := .undated "CL" .future .nymex
    let february : Symbol := .future "CL" .nymex { day := 19754 }
    let u := ofContracts [chain, february] { day := 19730 }
    ¬ u.SplitsByExpiry ∧
      u.frontMonth.contracts = [chain, february] ∧ u.backMonths.contracts = [chain, february] := by
  intro chain february u
  have hfront : u.frontMonth.contracts = [chain, february] := by cbv
  have hback : u.backMonths.contracts = [chain, february] := by cbv
  refine ⟨fun hsplits => ?_, hfront, hback⟩
  have hapart := hsplits.apart
  rw [hfront, hback] at hapart
  exact hapart (List.mem_cons_self ..) (List.mem_cons_self ..)

end FuturesChains
