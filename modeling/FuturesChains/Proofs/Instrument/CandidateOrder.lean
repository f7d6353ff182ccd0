import Mathlib
import FuturesChains.Instrument.ContractFilter
import FuturesChains.Proofs.Instrument.SymbolOrder

/-!
# The order of candidates

A filter universe puts its contracts in the order of expiry and, within an expiry, of root
(`Symbol.Precedes`), and merges equal neighbours. Kind and market have no part in that order, and
the sort leaves contracts that tie as they were listed. So every contract stands in the universe
once unless another one that ties with it is listed between two of its places:
`FilterUniverse.in_order_and_nodup_iff` says so, and that the steps of a filter that only drop
contracts keep both the order and the absence of repeats. With one root listed on two exchanges the
universe does repeat contracts (`FilterUniverse.repeated_across_exchanges`).
-/

namespace FuturesChains

namespace Symbol

/-- The first symbol does not expire after the second, nor stand behind it by root if they expire
together. What does not expire comes first. -/
structure Precedes (a b : Symbol) : Prop where
  expiry : a.expiry ≤ b.expiry
  root : a.expiry = b.expiry → a.id ≤ b.id

theorem dropRepeats_sublist (symbols : List Symbol) : (dropRepeats symbols).Sublist symbols := by
  fun_induction dropRepeats symbols with
  | case1 => exact .slnil
  | case2 => exact .refl _
  | case3 s rest ih => exact ih.cons s
  | case4 s t rest hne ih => exact ih.cons_cons s

theorem head?_dropRepeats (symbols : List Symbol) :
    (dropRepeats symbols).head? = symbols.head? := by
  fun_induction dropRepeats symbols with
  | case1 => rfl
  | case2 => rfl
  | case3 s rest ih => exact ih
  | case4 s t rest hne ih => rfl

/-- No two neighbours are equal once repeats are dropped. -/
theorem isChain_dropRepeats (symbols : List Symbol) :
    (dropRepeats symbols).IsChain (· ≠ ·) := by
  fun_induction dropRepeats symbols with
  | case1 => exact .nil
  | case2 s => exact .singleton s
  | case3 s rest ih => exact ih
  | case4 s t rest hne ih =>
      refine List.isChain_cons.2 ⟨fun next hnext => ?_, ih⟩
      rw [head?_dropRepeats] at hnext
      obtain rfl := Option.some.inj hnext
      exact hne

/-- Dropping repeats drops nothing from a part that has no equal neighbours. -/
theorem sublist_dropRepeats {part symbols : List Symbol} (hpart : part.IsChain (· ≠ ·))
    (h : part.Sublist symbols) : part.Sublist (dropRepeats symbols) := by
  fun_induction dropRepeats symbols generalizing part with
  | case1 => exact h
  | case2 => exact h
  | case3 s rest ih =>
      refine ih hpart ?_
      cases h with
      | cons _ h => exact h
      | cons_cons _ h =>
          cases h with
          | cons _ h => exact h.cons_cons s
          | cons_cons _ h => exact absurd rfl (List.isChain_cons_cons.1 hpart).1
  | case4 s t rest hne ih =>
      cases h with
      | cons _ h => exact (ih hpart h).cons s
      | cons_cons _ h => exact (ih hpart.tail h).cons_cons s

/-- Between two places of a symbol another one stands, where no two neighbours are equal. -/
theorem exists_between {symbols : List Symbol} {s : Symbol} (hchain : symbols.IsChain (· ≠ ·))
    (h : [s, s].Sublist symbols) : ∃ t, s ≠ t ∧ [s, t, s].Sublist symbols := by
  induction symbols with
  | nil => cases h
  | cons first rest ih =>
      cases h with
      | cons _ h =>
          obtain ⟨t, hne, hbetween⟩ := ih hchain.tail h
          exact ⟨t, hne, hbetween.cons first⟩
      | cons_cons _ h =>
          cases rest with
          | nil => cases h
          | cons second rest =>
              have hne : s ≠ second := (List.isChain_cons_cons.1 hchain).1
              have hlater : s ∈ rest := by
                rcases List.mem_cons.1 (List.singleton_sublist.1 h) with rfl | hlater
                · exact absurd rfl hne
                · exact hlater
              exact ⟨second, hne, ((List.singleton_sublist.2 hlater).cons_cons second).cons_cons s⟩

/-- Dropping repeats leaves every symbol once if no other one stands between two of its places. -/
theorem nodup_dropRepeats_iff {symbols : List Symbol} :
    (dropRepeats symbols).Nodup ↔ ∀ s t, [s, t, s].Sublist symbols → s = t := by
  constructor
  · intro hnodup s t hbetween
    by_contra hne
    have hpart : [s, t, s].IsChain (· ≠ ·) := by simp [hne, Ne.symm hne]
    have hrepeated := hnodup.sublist (sublist_dropRepeats hpart hbetween)
    simp at hrepeated
  · intro hnone
    rw [List.nodup_iff_sublist]
    intro s hrepeated
    obtain ⟨t, hne, hbetween⟩ := exists_between (isChain_dropRepeats symbols) hrepeated
    exact hne (hnone s t (hbetween.trans (dropRepeats_sublist symbols)))

theorem isLE_compareExpiry_iff (a b : Option Date) :
    (compareExpiry a b).isLE = true ↔ a ≤ b := by
  cases a <;> cases b
  case some.some date date' => exact Int.isLE_compare
  all_goals simp [compareExpiry]

theorem compareExpiry_eq_iff (a b : Option Date) : compareExpiry a b = .eq ↔ a = b := by
  cases a <;> cases b
  case some.some date date' =>
    rw [Option.some.injEq]
    exact Int.compare_eq_eq.trans ⟨Date.eq_of_day_eq, congrArg _⟩
  all_goals simp [compareExpiry]

end Symbol

namespace FilterUniverse

/-- The comparison by expiry, then by root. -/
def compareInOrder : Symbol → Symbol → Ordering :=
  compareLex (compareOn (·.expiry.map (·.day))) (compareOn (·.id))

theorem inOrder_iff (a b : Symbol) : inOrder a b = true ↔ (compareInOrder a b).isLE = true := by
  have hcompare : (Symbol.compareExpiry a.expiry b.expiry).then (Ord.compare a.id b.id) =
      compareInOrder a b := by
    obtain ⟨_, _, _, expiry⟩ := a
    obtain ⟨_, _, _, expiry'⟩ := b
    cases expiry <;> cases expiry' <;> rfl
  unfold inOrder
  rw [hcompare]
  cases compareInOrder a b <;> simp

instance : Std.TransCmp compareInOrder := by
  unfold compareInOrder
  infer_instance

/-- Contracts tie if and only if they expire together and share their root. -/
theorem compareInOrder_eq_iff (a b : Symbol) :
    compareInOrder a b = .eq ↔ a.expiry = b.expiry ∧ a.id = b.id := by
  have hday : Function.Injective Date.day := fun _ _ => Date.eq_of_day_eq
  simp only [compareInOrder, compareLex_eq_eq, compareOn, Std.LawfulEqCmp.compare_eq_iff_eq,
    (Option.map_injective hday).eq_iff]

theorem inOrder_trans (a b c : Symbol) (hab : inOrder a b = true) (hbc : inOrder b c = true) :
    inOrder a c = true := by
  rw [inOrder_iff] at hab hbc ⊢
  exact Std.TransCmp.isLE_trans hab hbc

theorem inOrder_total (a b : Symbol) : (inOrder a b || inOrder b a) = true := by
  have hswap : compareInOrder b a = (compareInOrder a b).swap := Std.OrientedCmp.eq_swap
  rw [Bool.or_eq_true, inOrder_iff, inOrder_iff, hswap]
  cases compareInOrder a b <;> simp

/-- The order of candidates goes by expiry, then by root. -/
theorem inOrder_iff_precedes (a b : Symbol) : inOrder a b = true ↔ a.Precedes b := by
  have hexpiry : (Symbol.compareExpiry a.expiry b.expiry).isLE = true ↔ a.expiry ≤ b.expiry :=
    Symbol.isLE_compareExpiry_iff ..
  have htogether : Symbol.compareExpiry a.expiry b.expiry = .eq ↔ a.expiry = b.expiry :=
    Symbol.compareExpiry_eq_iff ..
  have hroot : (Ord.compare a.id b.id).isLE = true ↔ a.id ≤ b.id := Std.LawfulBCmp.isLE_iff_le
  have hparts : inOrder a b = true ↔ ((Symbol.compareExpiry a.expiry b.expiry).then
      (Ord.compare a.id b.id)).isLE = true := by
    rw [inOrder, bne_iff_ne, Ordering.isLE_iff_ne_gt]
  rw [hparts, Ordering.isLE_then_iff_or]
  constructor
  · rintro (hlt | ⟨heq, hle⟩)
    · refine ⟨hexpiry.1 (Ordering.isLE_of_eq_lt hlt), fun hsame => ?_⟩
      rw [htogether.2 hsame] at hlt
      cases hlt
    · exact ⟨hexpiry.1 (Ordering.isLE_of_eq_eq heq), fun _ => hroot.1 hle⟩
  · intro h
    rcases Ordering.isLE_iff_eq_lt_or_eq_eq.1 (hexpiry.2 h.expiry) with hlt | heq
    · exact .inl hlt
    · exact .inr ⟨heq, hroot.2 (h.root (htogether.1 heq))⟩

/-- In their order no candidate expires before the first one. -/
theorem expiry_le_of_inOrder {a b : Symbol} {date date' : Date} (h : inOrder a b = true)
    (ha : a.expiry = some date) (hb : b.expiry = some date') : date ≤ date' := by
  have hle : a.expiry ≤ b.expiry := ((inOrder_iff_precedes a b).1 h).expiry
  rw [ha, hb] at hle
  exact Option.some_le_some.1 hle

theorem mem_ofContracts {s : Symbol} {contracts : List Symbol} {today : Date} :
    s ∈ (ofContracts contracts today).contracts ↔ s ∈ contracts := by
  rw [ofContracts, Symbol.mem_dropRepeats, (List.mergeSort_perm contracts inOrder).mem_iff]

/-- Candidates stand in their order. -/
theorem pairwise_ofContracts (contracts : List Symbol) (today : Date) :
    (ofContracts contracts today).contracts.Pairwise fun a b => inOrder a b = true :=
  (List.pairwise_mergeSort inOrder_trans inOrder_total contracts).sublist
    (Symbol.dropRepeats_sublist _)

/-- The sort leaves the contracts of one expiry and root as they were listed. -/
theorem filter_mergeSort (contracts : List Symbol) (s : Symbol) :
    (contracts.mergeSort inOrder).filter (compareInOrder s · = .eq) =
      contracts.filter (compareInOrder s · = .eq) := by
  let tied := contracts.filter (compareInOrder s · = .eq)
  have htied : ∀ t ∈ tied, compareInOrder s t = .eq := fun t ht =>
    of_decide_eq_true (List.mem_filter.1 ht).2
  have hties : tied.Pairwise fun a b => inOrder a b = true := by
    refine List.pairwise_of_forall_mem_list fun a ha b hb => (inOrder_iff a b).2 ?_
    have hflip : compareInOrder a s = .eq := Std.OrientedCmp.eq_symm (htied a ha)
    exact Ordering.isLE_of_eq_eq (Std.TransCmp.eq_trans hflip (htied b hb))
  have hsorted : tied.Sublist (contracts.mergeSort inOrder) :=
    List.sublist_mergeSort inOrder_trans inOrder_total hties List.filter_sublist
  have hself : tied.filter (compareInOrder s · = .eq) = tied :=
    List.filter_eq_self.2 fun t ht => decide_eq_true (htied t ht)
  have hkept := hsorted.filter (compareInOrder s · = .eq)
  rw [hself] at hkept
  exact (hkept.eq_of_length
    ((List.mergeSort_perm contracts inOrder).filter _).length_eq.symm).symm

/-- Between two places of a contract the sort leaves those that tie with it and no others. -/
theorem between_mergeSort_iff {contracts : List Symbol} {s t : Symbol} :
    [s, t, s].Sublist (contracts.mergeSort inOrder) ↔
      compareInOrder s t = .eq ∧ [s, t, s].Sublist contracts := by
  have hself : compareInOrder s s = .eq := Std.ReflCmp.compare_self
  have htied : compareInOrder s t = .eq →
      [s, t, s].filter (compareInOrder s · = .eq) = [s, t, s] := by
    intro htie
    simp [hself, htie]
  constructor
  · intro hbetween
    have hsorted : [s, t, s].Pairwise fun a b => inOrder a b = true :=
      (List.pairwise_mergeSort inOrder_trans inOrder_total contracts).sublist hbetween
    have hst : (compareInOrder s t).isLE = true := (inOrder_iff s t).1 (by simp_all)
    have hts : (compareInOrder t s).isLE = true := (inOrder_iff t s).1 (by simp_all)
    have htie : compareInOrder s t = .eq := Std.OrientedCmp.isLE_antisymm hst hts
    have hkept := hbetween.filter (compareInOrder s · = .eq)
    rw [htied htie, filter_mergeSort] at hkept
    exact ⟨htie, hkept.trans List.filter_sublist⟩
  · rintro ⟨htie, hbetween⟩
    have hkept := hbetween.filter (compareInOrder s · = .eq)
    rw [htied htie, ← filter_mergeSort] at hkept
    exact hkept.trans List.filter_sublist

/-- A universe holds every contract once if no other contract that ties with it is listed between
two of its places. -/
theorem nodup_ofContracts_iff {contracts : List Symbol} {today : Date} :
    (ofContracts contracts today).contracts.Nodup ↔ ∀ s t, [s, t, s].Sublist contracts →
      s.expiry = t.expiry → s.id = t.id → s = t := by
  rw [ofContracts, Symbol.nodup_dropRepeats_iff]
  refine forall₂_congr fun s t => ?_
  rw [between_mergeSort_iff, compareInOrder_eq_iff]
  tauto

end FilterUniverse

/-- A step that drops contracts or asks for market open, and puts in no others. -/
def FilterStep.narrows : FilterStep → Bool
  | .replace _ => false
  | _ => true

theorem FilterUniverse.keep_sublist (u : FilterUniverse) (test : Symbol → Bool) :
    (u.keep test).contracts.Sublist u.contracts :=
  List.filter_sublist

theorem FilterStep.apply_sublist (u : FilterUniverse) {step : FilterStep}
    (h : step.narrows = true) : (step.apply u).contracts.Sublist u.contracts := by
  cases step with
  | expiration minDays maxDays => exact u.keep_sublist _
  | frontMonth =>
      simp only [FilterStep.apply, FilterUniverse.frontMonth]
      split
      · exact u.keep_sublist _
      · exact .refl _
  | backMonths =>
      simp only [FilterStep.apply, FilterUniverse.backMonths]
      split
      · exact u.keep_sublist _
      · exact .refl _
  | marketOpen => exact .refl _
  | contracts test => exact u.keep_sublist _
  | replace symbols => cases h

/-- Steps that narrow leave a part of the contracts, in the order they had. -/
theorem FilterStep.foldl_apply_sublist (u : FilterUniverse) {steps : List FilterStep}
    (h : ∀ step ∈ steps, step.narrows = true) :
    (steps.foldl FilterStep.apply u).contracts.Sublist u.contracts := by
  induction steps generalizing u with
  | nil => exact .refl _
  | cons step steps ih =>
      obtain ⟨hstep, hsteps⟩ := List.forall_mem_cons.1 h
      exact (ih (step.apply u) hsteps).trans (apply_sublist u hstep)

/-- The universe of some contracts holds the same ones, by expiry and within an expiry by root. It
holds every one once if and only if no other one with its expiry and root is listed between two of
its places. Steps that narrow keep the order, and where every contract is there once their count is
the length. -/
theorem FilterUniverse.in_order_and_nodup_iff (contracts : List Symbol) (today : Date)
    {steps : List FilterStep} (hsteps : ∀ step ∈ steps, step.narrows = true) :
    let given := ofContracts contracts today
    let kept := steps.foldl FilterStep.apply given
    (∀ s, s ∈ given.contracts ↔ s ∈ contracts) ∧
      given.contracts.Pairwise Symbol.Precedes ∧
      (given.contracts.Nodup ↔ ∀ s t, [s, t, s].Sublist contracts →
        s.expiry = t.expiry → s.id = t.id → s = t) ∧
      kept.contracts.Sublist given.contracts ∧
      kept.contracts.Pairwise Symbol.Precedes ∧
      (given.contracts.Nodup →
        kept.contracts.Nodup ∧ kept.contracts.toFinset.card = kept.contracts.length) := by
  intro given kept
  have hordered : given.contracts.Pairwise Symbol.Precedes :=
    (pairwise_ofContracts contracts today).imp fun hab => (inOrder_iff_precedes _ _).1 hab
  have hpart : kept.contracts.Sublist given.contracts :=
    FilterStep.foldl_apply_sublist given hsteps
  refine ⟨fun s => mem_ofContracts, hordered, nodup_ofContracts_iff, hpart,
    hordered.sublist hpart, fun hnodup => ?_⟩
  have hkept : kept.contracts.Nodup := hnodup.sublist hpart
  exact ⟨hkept, List.toFinset_card_of_nodup hkept⟩

/-- Two months of crude oil are listed, both of them twice and one of them on a second exchange too,
but not between. So each contract is in the universe once, and the later month is the one that is
left behind the front month. -/
theorem FilterUniverse.in_order_and_nodup_iff_crude_oil :
    let february : Symbol := .future "CL" .nymex { day := 19754 }
    let elsewhere : Symbol := .future "CL" .cme { day := 19754 }
    let march : Symbol := .future "CL" .nymex { day := 19783 }
    let given := ofContracts [march, february, february, elsewhere, march] { day := 19730 }
    let steps : List FilterStep := [.marketOpen, .backMonths, .contracts (.market .nymex)]
    given.contracts = [february, elsewhere, march] ∧
      (steps.foldl FilterStep.apply given).contracts = [march] ∧
      (steps.foldl FilterStep.apply given).contracts.toFinset.card = 1 := by
  intro february elsewhere march given steps
  have hgiven : given.contracts = [february, elsewhere, march] := by cbv
  have hkept : (steps.foldl FilterStep.apply given).contracts = [march] := by cbv
  have hsteps : ∀ step ∈ steps, step.narrows = true := by decide
  obtain ⟨-, -, -, -, -, hcount⟩ := in_order_and_nodup_iff
    [march, february, february, elsewhere, march] { day := 19730 } hsteps
  refine ⟨hgiven, hkept, (hcount ?_).2.trans (congrArg List.length hkept)⟩
  rw [show (ofContracts _ _).contracts = _ from hgiven]
  decide

/-- Crude oil that two exchanges list by turns is in the universe three times, though it is two
contracts, and so it is in the front month. -/
theorem FilterUniverse.repeated_across_exchanges :
    let nymex : Symbol := .future "CL" .nymex { day := 19754 }
    let cme : Symbol := .future "CL" .cme { day := 19754 }
    let given := ofContracts [nymex, cme, nymex] { day := 19730 }
    ¬ given.contracts.Nodup ∧
      given.frontMonth.contracts.length = 3 ∧ given.frontMonth.contracts.toFinset.card = 2 := by
  intro nymex cme given
  have hgiven : given.contracts = [nymex, cme, nymex] := by cbv
  have hfront : given.frontMonth.contracts = [nymex, cme, nymex] := by cbv
  rw [hgiven, hfront]
  decide

end FuturesChains
