import FuturesChains.Proofs.Instrument.SymbolOrder
import FuturesChains.Selection.Active

/-!
# Running selections

What the two writes to the active universes do to the entries that are found for the chains:
`find?_add` for a universe put in force, and `Runs` for a selection that is run. `run_iff` says that
`Runs` holds of exactly the answers of `ActiveUniverses.run`. Putting universes in force moves no
selection and gives no chain a second entry. A selection changes for its own chain only, stays in
strictly ascending order, and does not change a second time or while the security waits for market
open.
-/

namespace FuturesChains

/-- Where no two elements have one key, an element is found under its key. -/
theorem find?_key_of_mem {α β : Type} [DecidableEq β] {key : α → β} {l : List α}
    (hnodup : (l.map key).Nodup) {a : α} (ha : a ∈ l) : l.find? (key · = key a) = some a := by
  induction l with
  | nil => cases ha
  | cons head rest ih =>
      rw [List.map_cons, List.nodup_cons] at hnodup
      rcases List.mem_cons.1 ha with rfl | ha
      · simp
      · have hne : key head ≠ key a := fun heq => hnodup.1 (heq ▸ List.mem_map_of_mem ha)
        simpa [hne] using ih hnodup.2 ha

/-- A filter that asks for market open has its security wait while the exchange is closed. -/
def Security.AwaitsOpen (s : Security) (now : Instant) (available : List Symbol) : Prop :=
  ∃ today, s.hours.localDate? now = some today ∧ s.hours.isOpen? .both now = some false ∧
    (s.filter.apply (.ofContracts (available.filter (isLiveContract s.symbol today))
      today)).onlyAtMarketOpen = true

/-- A selection is undecided exactly while the security waits for market open. -/
theorem Security.select_eq_none_iff {s : Security} {now : Instant} {available : List Symbol} :
    s.select now available = .ok none ↔ s.AwaitsOpen now available := by
  unfold select AwaitsOpen
  cases s.hours.localDate? now with
  | none => simp [Halt.orStop, bind, Except.bind]
  | some today =>
      cases s.hours.isOpen? .both now with
      | none => simp [Halt.orStop, bind, Except.bind]
      | some isOpen => cases isOpen <;> simp [Halt.orStop, bind, Except.bind, pure, Except.pure]

namespace SelectionDiff

/-- A selection that stays has no change. -/
theorem between_self (selected : List Symbol) : between selected selected = .none := by
  simp [between, SelectionDiff.none]

theorem between_nil (selected : List Symbol) : between [] selected = ⟨selected, []⟩ := by
  simp [between]

/-- The change from one contract to another, which is none if they are the same. -/
theorem between_singleton (old contract : Symbol) :
    between [old] [contract] = if old = contract then .none else ⟨[contract], [old]⟩ := by
  split
  · rename_i heq
    rw [heq, between_self]
  · rename_i hne
    simp [between, hne, Ne.symm hne]

end SelectionDiff

namespace ActiveChain

/-- The contracts that are selected once the selection has run: those that the filter gives, or
those from before while the selection is undecided. -/
def next (a : ActiveChain) (r : Registry) (now : Instant) (available : List Symbol) :
    Except Halt (List Symbol) :=
  (a.current.select r now available).map fun
    | none => a.selected
    | some contracts => Symbol.ascending contracts

/-- An undecided selection reports its change like any other. -/
theorem run_eq (a : ActiveChain) (r : Registry) (now : Instant) (available : List Symbol) :
    a.run r now available = (a.next r now available).map fun next =>
      (.between a.selected next, { a with selected := next }) := by
  unfold run next
  cases a.current.select r now available with
  | error stop => rfl
  | ok selected =>
      cases selected with
      | none => simp [bind, Except.bind, pure, Except.pure, Except.map, SelectionDiff.between_self]
      | some contracts => rfl

/-- Selections stay in strictly ascending order. -/
theorem isAscending_next {a : ActiveChain} {r : Registry} {now : Instant}
    {available next : List Symbol}
    (h : a.next r now available = .ok next) (ha : Symbol.IsAscending a.selected) :
    Symbol.IsAscending next := by
  obtain ⟨selected, -, rfl⟩ := Halt.map_eq_ok.1 h
  cases selected with
  | none => exact ha
  | some contracts => exact Symbol.isAscending_ascending contracts

/-- What was just selected is selected again. -/
theorem next_of_next {a : ActiveChain} {r : Registry} {now : Instant} {available next : List Symbol}
    (h : a.next r now available = .ok next) :
    ActiveChain.next { a with selected := next } r now available = .ok next := by
  obtain ⟨selected, hselect, hnext⟩ := Halt.map_eq_ok.1 h
  refine Halt.map_eq_ok.2 ⟨selected, hselect, ?_⟩
  cases selected with
  | none => rfl
  | some contracts => exact hnext

end ActiveChain

namespace ActiveUniverses

theorem chain_of_find? {a : ActiveUniverses} {chain : Symbol} {entry : ActiveChain}
    (h : a.find? chain = some entry) : entry.chain = chain := by
  simpa using List.find?_some h

section Change

variable (target : Symbol) (change : ActiveChain → ActiveChain)
  (hchange : ∀ entry, entry.chain = target → (change entry).chain = target)

include hchange

/-- A change of the entries of a chain, which it keeps, keeps the chain of every entry. -/
theorem chain_change (entry : ActiveChain) :
    (if entry.chain = target then change entry else entry).chain = entry.chain := by
  split
  · rename_i h
    rw [hchange entry h, h]
  · rfl

theorem chains_change (entries : List ActiveChain) :
    (entries.map fun entry => if entry.chain = target then change entry else entry).map (·.chain) =
      entries.map (·.chain) := by
  rw [List.map_map]
  exact List.map_congr_left fun entry _ => chain_change target change hchange entry

/-- Such a change changes what is found for that chain. -/
theorem find?_change (a : ActiveUniverses) (chain : Symbol) :
    (ActiveUniverses.mk (a.chains.map fun entry =>
        if entry.chain = target then change entry else entry)).find? chain =
      if target = chain then (a.find? chain).map change else a.find? chain := by
  simp only [find?, List.find?_map, Function.comp_def, chain_change target change hchange]
  cases hfind : a.chains.find? (·.chain = chain) with
  | none => simp
  | some entry =>
      have hentry : entry.chain = chain := chain_of_find? (a := a) hfind
      by_cases h : target = chain <;> simp [hentry, h, eq_comm]

end Change

/-- Among entries of other chains a new one is found. -/
theorem find?_insertChain (entry : ActiveChain) {entries : List ActiveChain}
    (hnew : (ActiveUniverses.mk entries).find? entry.chain = none) (chain : Symbol) :
    (ActiveUniverses.mk (insertChain entry entries)).find? chain =
      if entry.chain = chain then some entry else (ActiveUniverses.mk entries).find? chain := by
  induction entries with
  | nil => by_cases h : entry.chain = chain <;> simp [insertChain, find?, h]
  | cons other rest ih =>
      have hother : other.chain ≠ entry.chain := by
        intro heq
        simp [find?, heq] at hnew
      have hrest : (ActiveUniverses.mk rest).find? entry.chain = none := by
        simpa [find?, hother] using hnew
      have ih := ih hrest
      simp only [find?] at ih ⊢
      unfold insertChain
      split
      · by_cases h : entry.chain = chain <;> simp [h]
      · by_cases h : other.chain = chain
        · have hne : entry.chain ≠ chain := fun heq => hother (h.trans heq.symm)
          simp [h, hne]
        · simpa [h] using ih

/-- Putting a universe in force changes the entry of its chain only, and keeps the selection. -/
theorem find?_add (a : ActiveUniverses) (u : ChainUniverse) (chain : Symbol) :
    (a.add u).2.find? chain =
      if u.chain = chain then some ⟨u, a.selected chain⟩ else a.find? chain := by
  unfold add
  split
  · rename_i hactive
    rw [find?_change u.chain (fun entry => { entry with current := u }) fun _ _ => rfl]
    split
    · rename_i h
      subst h
      obtain ⟨entry, hentry⟩ := Option.isSome_iff_exists.1 hactive
      simp [hentry, selected]
    · rfl
  · rename_i hinactive
    have hnone : a.find? u.chain = none := by simpa [contains] using hinactive
    by_cases h : u.chain = chain
    · subst h
      simp [find?_insertChain ⟨u, []⟩ hnone, ActiveChain.chain, selected, hnone]
    · simp [find?_insertChain ⟨u, []⟩ hnone, ActiveChain.chain, h]

/-- A new selection in the entry of a chain changes what is found for that chain only. -/
theorem find?_replace {a : ActiveUniverses} {entry : ActiveChain} {chain : Symbol}
    (h : a.find? chain = some entry) (next : List Symbol) (other : Symbol) :
    (a.replace { entry with selected := next }).find? other =
      if chain = other then some { entry with selected := next } else a.find? other := by
  obtain rfl := chain_of_find? h
  have hfind := find?_change entry.chain (fun _ => { entry with selected := next })
    (fun _ _ => rfl) a other
  refine Eq.trans hfind ?_
  by_cases heq : entry.chain = other
  · subst heq
    rw [if_pos rfl, if_pos rfl]
    exact congrArg (Option.map _) h
  · rw [if_neg heq, if_neg heq]

theorem selected_of_find? {a : ActiveUniverses} {chain : Symbol} {entry : ActiveChain}
    (h : a.find? chain = some entry) : a.selected chain = entry.selected := by
  simp [selected, h]

/-- Putting a universe in force moves no selection. -/
theorem selected_add (a : ActiveUniverses) (u : ChainUniverse) (chain : Symbol) :
    (a.add u).2.selected chain = a.selected chain := by
  have hfind := find?_add a u chain
  split at hfind
  · exact selected_of_find? hfind
  · simp only [selected, hfind]

theorem selected_replace {a : ActiveUniverses} {entry : ActiveChain} {chain : Symbol}
    (h : a.find? chain = some entry) (next : List Symbol) (other : Symbol) :
    (a.replace { entry with selected := next }).selected other =
      if chain = other then next else a.selected other := by
  unfold selected
  rw [find?_replace h]
  by_cases h : chain = other <;> simp [h]

/-- No chain has two entries. -/
def Distinct (a : ActiveUniverses) : Prop := (a.chains.map (·.chain)).Nodup

/-- The universes in force once some universes were put in force, in order. -/
def addAll (a : ActiveUniverses) (given : List ChainUniverse) : ActiveUniverses :=
  given.foldl (fun a u => (a.add u).2) a

section Entries

variable {a : ActiveUniverses}

theorem find?_eq_none_iff {chain : Symbol} :
    a.find? chain = none ↔ chain ∉ a.chains.map (·.chain) := by
  simp only [find?, List.find?_eq_none, decide_eq_true_eq, List.mem_map, not_exists, not_and]

theorem contains_iff {chain : Symbol} :
    a.contains chain = true ↔ chain ∈ a.chains.map (·.chain) := by
  rw [contains, Option.isSome_iff_ne_none, ne_eq, find?_eq_none_iff, Decidable.not_not]

/-- A chain that is not active has no selection. -/
theorem selected_of_not_contains {chain : Symbol} (h : a.contains chain = false) :
    a.selected chain = [] := by
  unfold contains at h
  unfold selected
  cases hfind : a.find? chain with
  | none => rfl
  | some entry =>
      rw [hfind] at h
      cases h

/-- Where no chain has two entries, an entry is found for its chain. -/
theorem Distinct.find?_of_mem (h : a.Distinct) {entry : ActiveChain} (hentry : entry ∈ a.chains) :
    a.find? entry.chain = some entry :=
  find?_key_of_mem h hentry

/-- Putting an entry into its place adds its chain. -/
theorem chains_insertChain_perm (entry : ActiveChain) (entries : List ActiveChain) :
    ((insertChain entry entries).map (·.chain)).Perm (entry.chain :: entries.map (·.chain)) := by
  induction entries with
  | nil => exact .refl _
  | cons other rest ih =>
      unfold insertChain
      split
      · exact .refl _
      · exact (ih.cons _).trans (.swap ..)

theorem Distinct.add (h : a.Distinct) (u : ChainUniverse) : (a.add u).2.Distinct := by
  unfold ActiveUniverses.add
  split
  · unfold Distinct
    rwa [chains_change u.chain (fun entry => { entry with current := u }) fun _ _ => rfl]
  · rename_i hinactive
    have hfresh : u.chain ∉ a.chains.map (·.chain) := fun hmem =>
      hinactive (contains_iff.2 hmem)
    exact (chains_insertChain_perm ⟨u, []⟩ a.chains).nodup_iff.2 (List.nodup_cons.2 ⟨hfresh, h⟩)

theorem Distinct.addAll (h : a.Distinct) (given : List ChainUniverse) :
    (a.addAll given).Distinct := by
  induction given generalizing a with
  | nil => exact h
  | cons u rest ih => exact ih (h.add u)

theorem selected_addAll (a : ActiveUniverses) (given : List ChainUniverse) (chain : Symbol) :
    (a.addAll given).selected chain = a.selected chain := by
  induction given generalizing a with
  | nil => rfl
  | cons u rest ih => exact (ih (a.add u).2).trans (selected_add a u chain)

/-- A chain that is active stays so when universes are put in force. -/
theorem contains_addAll (given : List ChainUniverse) {chain : Symbol}
    (h : a.contains chain = true) : (a.addAll given).contains chain = true := by
  induction given generalizing a with
  | nil => exact h
  | cons u rest ih =>
      refine ih ?_
      rw [contains, find?_add]
      split
      · rfl
      · exact h

/-- A new selection leaves the chains. -/
theorem chains_replace (a : ActiveUniverses) (entry : ActiveChain) :
    (a.replace entry).chains.map (·.chain) = a.chains.map (·.chain) :=
  chains_change entry.chain (fun _ => entry) (fun _ _ => rfl) a.chains

end Entries

/-- All that running the selection of a chain does. Nothing happens for a chain that is not active,
and an active one takes its next selection. -/
inductive Runs (a : ActiveUniverses) (r : Registry) (chain : Symbol) (now : Instant)
    (available : List Symbol) : Option SelectionDiff → ActiveUniverses → Prop where
  | inactive : a.find? chain = none → Runs a r chain now available none a
  | active (entry next) :
      a.find? chain = some entry →
      entry.next r now available = .ok next →
      Runs a r chain now available (some (.between entry.selected next))
        (a.replace { entry with selected := next })

theorem run_iff {a after : ActiveUniverses} {r : Registry} {chain : Symbol} {now : Instant}
    {available : List Symbol} {diff : Option SelectionDiff} :
    a.run r chain now available = .ok (diff, after) ↔ Runs a r chain now available diff after := by
  constructor
  · intro h
    unfold run at h
    split at h
    · rename_i hfind
      cases h
      exact .inactive hfind
    · rename_i entry hfind
      simp only [ActiveChain.run_eq, Halt.bind_eq_ok, Halt.map_eq_ok] at h
      obtain ⟨_, ⟨next, hnext, rfl⟩, h⟩ := h
      cases h
      exact .active entry next hfind hnext
  · intro h
    cases h with
    | inactive hfind => simp [run, hfind]
    | active entry next hfind hnext =>
        simp only [run, hfind, ActiveChain.run_eq, hnext]
        rfl

namespace Runs

variable {a after : ActiveUniverses} {r : Registry} {chain : Symbol} {now : Instant}
  {available : List Symbol} {diff : Option SelectionDiff}

/-- A run leaves the selections of other chains. -/
theorem selected_of_ne (h : Runs a r chain now available diff after) {other : Symbol}
    (hne : other ≠ chain) : after.selected other = a.selected other := by
  cases h with
  | inactive hfind => rfl
  | active entry next hfind hnext => rw [selected_replace hfind, if_neg hne.symm]

/-- The change of an active chain is that from its selection before to the one after. -/
theorem diff_eq (h : Runs a r chain now available diff after) :
    diff = (a.find? chain).map fun _ => .between (a.selected chain) (after.selected chain) := by
  cases h with
  | inactive hfind => simp [hfind]
  | active entry next hfind hnext =>
      rw [selected_replace hfind, if_pos rfl, selected_of_find? hfind, hfind]
      rfl

/-- Selections stay in strictly ascending order. -/
theorem isAscending (h : Runs a r chain now available diff after)
    (ha : Symbol.IsAscending (a.selected chain)) : Symbol.IsAscending (after.selected chain) := by
  cases h with
  | inactive hfind => exact ha
  | active entry next hfind hnext =>
      rw [selected_of_find? hfind] at ha
      rw [selected_replace hfind, if_pos rfl]
      exact ActiveChain.isAscending_next hnext ha

/-- A second run reports that nothing changed, and nothing does. -/
theorem again (h : Runs a r chain now available diff after) :
    ∃ again, Runs after r chain now available (diff.map fun _ => .none) again ∧
      ∀ other, again.selected other = after.selected other := by
  cases h with
  | inactive hfind => exact ⟨a, .inactive hfind, fun _ => rfl⟩
  | active entry next hfind hnext =>
      have hfind' := (find?_replace hfind next chain).trans (if_pos rfl)
      have hrun := Runs.active _ next hfind' (ActiveChain.next_of_next hnext)
      rw [SelectionDiff.between_self] at hrun
      refine ⟨_, hrun, fun other => ?_⟩
      rw [selected_replace hfind']
      split
      · rename_i heq
        rw [← heq, selected_replace hfind, if_pos rfl]
      · rfl

/-- While the security of an active chain waits for market open, a run reports that nothing changed,
and nothing does. -/
theorem of_awaitsOpen {entry : ActiveChain} {security : Security}
    (hfind : a.find? chain = some entry)
    (hsecurity : r.security? entry.current.security = some security)
    (hawaits : security.AwaitsOpen now available) :
    ∃ after, Runs a r chain now available (some .none) after ∧
      ∀ other, after.selected other = a.selected other := by
  have hselect : entry.current.select r now available = .ok none := by
    simpa only [ChainUniverse.select, hsecurity] using Security.select_eq_none_iff.2 hawaits
  have hnext : entry.next r now available = .ok entry.selected := by
    simp [ActiveChain.next, hselect, Except.map]
  have hrun := Runs.active entry entry.selected hfind hnext
  rw [SelectionDiff.between_self] at hrun
  refine ⟨_, hrun, fun other => ?_⟩
  rw [selected_replace hfind]
  split
  · rename_i heq
    rw [← heq, selected_of_find? hfind]
  · rfl

end Runs

end ActiveUniverses

end FuturesChains
