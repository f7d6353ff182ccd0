import Mathlib
import FuturesChains.Proofs.Selection.ActiveSelection
import FuturesChains.Proofs.Selection.Host

/-!
# Replaying selection changes

A reader of selection changes keeps a set of contracts for a chain: of every change that is reported
for the chain it deletes the contracts that went out and inserts those that came in.
`replay_eq_selected` says that from the empty set on this gives the contracts that are selected for
the chain, after any history of universes put in force and selections run, with registries of any
kind. The selection of a chain moves only by running it, and running it again moves nothing.
-/

namespace FuturesChains

namespace SelectionDiff

/-- The contracts of a reader after a change. -/
def applyTo (d : SelectionDiff) (contracts : Finset Symbol) : Finset Symbol :=
  (contracts \ d.removed.toFinset) ∪ d.added.toFinset

theorem mem_added_between {before after : List Symbol} {s : Symbol} :
    s ∈ (between before after).added ↔ s ∈ after ∧ s ∉ before := by
  simp [between]

theorem mem_removed_between {before after : List Symbol} {s : Symbol} :
    s ∈ (between before after).removed ↔ s ∈ before ∧ s ∉ after := by
  simp [between]

/-- The change between two selections leads a reader from the one to the other. -/
theorem applyTo_between (before after : List Symbol) :
    (between before after).applyTo before.toFinset = after.toFinset := by
  ext s
  simp only [applyTo, Finset.mem_union, Finset.mem_sdiff, List.mem_toFinset, mem_added_between,
    mem_removed_between]
  tauto

end SelectionDiff

/-- What happens to the universes in force. A selection is run with a registry of its own, so the
filters may change from one action to the next. -/
inductive UniverseAction where
  | add (u : ChainUniverse)
  | run (registry : Registry) (chain : Symbol) (now : Instant) (available : List Symbol)

namespace ActiveUniverses

/-- Take an action: the changes that it reports with their chain, and the universes after it. -/
def act (a : ActiveUniverses) :
    UniverseAction → Except Halt (List (Symbol × SelectionDiff) × ActiveUniverses)
  | .add u => .ok ([], (a.add u).2)
  | .run registry chain now available => do
    let (diff, a) ← a.run registry chain now available
    return ((diff.map (chain, ·)).toList, a)

/-- Take some actions in order: the changes that they report, and the universes after them. -/
def history (a : ActiveUniverses) :
    List UniverseAction → Except Halt (List (Symbol × SelectionDiff) × ActiveUniverses)
  | [] => .ok ([], a)
  | action :: rest => do
    let (diffs, a) ← a.act action
    let (later, a) ← a.history rest
    return (diffs ++ later, a)

/-- The contracts of a reader of a chain after some changes, those of other chains among them. -/
def replay (chain : Symbol) (contracts : Finset Symbol) :
    List (Symbol × SelectionDiff) → Finset Symbol
  | [] => contracts
  | (other, diff) :: rest =>
    replay chain (if other = chain then diff.applyTo contracts else contracts) rest

theorem replay_append (chain : Symbol) (contracts : Finset Symbol)
    (diffs later : List (Symbol × SelectionDiff)) :
    replay chain contracts (diffs ++ later) =
      replay chain (replay chain contracts diffs) later := by
  induction diffs generalizing contracts with
  | nil => rfl
  | cons head rest ih =>
      obtain ⟨other, diff⟩ := head
      exact ih _

/-- One action leads a reader of a chain from its selection before to the one after. -/
theorem act_replay {a after : ActiveUniverses} {action : UniverseAction}
    {diffs : List (Symbol × SelectionDiff)} (h : a.act action = .ok (diffs, after))
    (chain : Symbol) :
    replay chain (a.selected chain).toFinset diffs = (after.selected chain).toFinset := by
  cases action with
  | add u =>
      cases h
      rw [selected_add]
      rfl
  | run registry target now available =>
      simp only [act, Halt.bind_eq_ok] at h
      obtain ⟨⟨diff, mid⟩, hrun, h⟩ := h
      cases h
      rw [run_iff] at hrun
      have hdiff := hrun.diff_eq
      by_cases heq : target = chain
      · subst heq
        cases hfind : a.find? target with
        | none =>
            rw [hfind] at hdiff
            subst hdiff
            cases hrun
            rfl
        | some entry =>
            rw [hfind] at hdiff
            subst hdiff
            simp [replay, SelectionDiff.applyTo_between]
      · rw [hrun.selected_of_ne (Ne.symm heq)]
        cases diff <;> simp [replay, heq]

/-- An action keeps all selections in strictly ascending order. -/
theorem act_isAscending {a after : ActiveUniverses} {action : UniverseAction}
    {diffs : List (Symbol × SelectionDiff)} (h : a.act action = .ok (diffs, after))
    (ha : ∀ chain, Symbol.IsAscending (a.selected chain)) (chain : Symbol) :
    Symbol.IsAscending (after.selected chain) := by
  cases action with
  | add u =>
      cases h
      rw [selected_add]
      exact ha chain
  | run registry target now available =>
      simp only [act, Halt.bind_eq_ok] at h
      obtain ⟨⟨diff, mid⟩, hrun, h⟩ := h
      cases h
      rw [run_iff] at hrun
      by_cases heq : chain = target
      · subst heq
        exact hrun.isAscending (ha chain)
      · rw [hrun.selected_of_ne heq]
        exact ha chain

/-- A history leads a reader of a chain from its selection before to the one after, and keeps all
selections in order, by induction on the actions. -/
theorem history_replay {a after : ActiveUniverses} {actions : List UniverseAction}
    {diffs : List (Symbol × SelectionDiff)} (h : a.history actions = .ok (diffs, after))
    (ha : ∀ chain, Symbol.IsAscending (a.selected chain)) (chain : Symbol) :
    replay chain (a.selected chain).toFinset diffs = (after.selected chain).toFinset ∧
      Symbol.IsAscending (after.selected chain) := by
  induction actions generalizing a diffs with
  | nil =>
      cases h
      exact ⟨rfl, ha chain⟩
  | cons action rest ih =>
      simp only [history, Halt.bind_eq_ok] at h
      obtain ⟨⟨first, mid⟩, hact, ⟨later, last⟩, hrest, h⟩ := h
      cases h
      rw [replay_append, act_replay hact]
      exact ih hrest (act_isAscending hact ha)

/-- After any history on no universes, the reported changes of a chain replay from the empty set to
its selection, and every selection is strictly ascending. Putting a universe in force moves no
selection. A run of the selection of a chain reports exactly the contracts that came in and those
that went out, each in strictly ascending order, and leaves other chains alone; a second such run
reports that nothing changed, and so does any run while the security waits for market open. -/
theorem replay_eq_selected {actions : List UniverseAction} {diffs : List (Symbol × SelectionDiff)}
    {a : ActiveUniverses} (hhistory : ActiveUniverses.empty.history actions = .ok (diffs, a)) :
    (∀ chain, replay chain ∅ diffs = (a.selected chain).toFinset ∧
        Symbol.IsAscending (a.selected chain)) ∧
      (∀ u chain, (a.add u).2.selected chain = a.selected chain) ∧
      ∀ r chain now available,
        (∀ diff after, a.run r chain now available = .ok (diff, after) →
          diff.isSome = a.contains chain ∧
          (∀ other, other ≠ chain → after.selected other = a.selected other) ∧
          (∀ d, diff = some d →
            (∀ s, s ∈ d.added ↔ s ∈ after.selected chain ∧ s ∉ a.selected chain) ∧
            (∀ s, s ∈ d.removed ↔ s ∈ a.selected chain ∧ s ∉ after.selected chain) ∧
            Symbol.IsAscending d.added ∧ Symbol.IsAscending d.removed) ∧
          ∃ again, after.run r chain now available = .ok (diff.map fun _ => .none, again) ∧
            ∀ other, again.selected other = after.selected other) ∧
        ∀ entry security, a.find? chain = some entry →
          r.security? entry.current.security = some security →
          security.AwaitsOpen now available →
          ∃ after, a.run r chain now available = .ok (some .none, after) ∧
            ∀ other, after.selected other = a.selected other := by
  have hascending : ∀ chain, Symbol.IsAscending (a.selected chain) := fun chain =>
    (history_replay hhistory (fun _ => List.Pairwise.nil) chain).2
  refine ⟨history_replay hhistory fun _ => List.Pairwise.nil, selected_add a,
    fun r chain now available => ⟨fun diff after hrun => ?_, ?_⟩⟩
  · rw [run_iff] at hrun
    have hdiff := hrun.diff_eq
    refine ⟨?_, fun other => hrun.selected_of_ne, ?_, ?_⟩
    · rw [hdiff, Option.isSome_map]
      rfl
    · rintro d rfl
      have hd : d = .between (a.selected chain) (after.selected chain) := by
        obtain ⟨_, -, hd⟩ := Option.map_eq_some_iff.1 hdiff.symm
        exact hd.symm
      subst hd
      exact ⟨fun _ => SelectionDiff.mem_added_between, fun _ => SelectionDiff.mem_removed_between,
        (hrun.isAscending (hascending chain)).filter _, (hascending chain).filter _⟩
    · obtain ⟨again, hagain, hselected⟩ := hrun.again
      exact ⟨again, run_iff.2 hagain, hselected⟩
  · intro entry security hfind hsecurity hawaits
    obtain ⟨after, hrun, hselected⟩ := Runs.of_awaitsOpen hfind hsecurity hawaits
    exact ⟨after, run_iff.2 hrun, hselected⟩

/-- March and June come in, and March goes out when it is no longer listed, also with the universe
put in force again in between. On a Saturday a filter that asks for market open changes nothing. -/
theorem replay_eq_selected_crude_oil :
    let oil : Symbol := .undated "CL" .future .nymex
    let march : Symbol := .future "CL" .nymex ⟨70, by decide, by decide⟩
    let june : Symbol := .future "CL" .nymex ⟨160, by decide, by decide⟩
    let saturday : Instant := ⟨216000, 0, by decide⟩
    let request : SecurityRequest := (Facilities.traded .standard).request oil
      ⟨.ofExchange .nymex, .newYork⟩ ⟨"", .usd, .one, .one, .one, .one, none⟩ .standard []
    let registry (filter : ContractFilter) : Registry :=
      (Registry.empty.insert ((request.security request.subscription).attach filter)).2
    let u : ChainUniverse := ⟨oil, ⟨0⟩, .standard, []⟩
    ∃ diffs a after again, ActiveUniverses.empty.history
        [.add u, .run (registry .identity) oil default [june, march, june], .add u,
          .run (registry .identity) oil default [june]] = .ok (diffs, a) ∧
      diffs = [(oil, ⟨[march, june], []⟩), (oil, ⟨[], [march]⟩)] ∧
      replay oil ∅ diffs = {june} ∧
      a.run (registry (.steps "" [.marketOpen])) oil saturday [march] = .ok (some .none, after) ∧
      after.selected oil = [june] ∧
      after.run (registry (.steps "" [.marketOpen])) oil saturday [march] =
        .ok (some .none, again) := by
  intro oil march june saturday request registry u
  have hrun : (ActiveUniverses.empty.history
      [.add u, .run (registry .identity) oil default [june, march, june], .add u,
        .run (registry .identity) oil default [june]]).map (fun result =>
          (result.1, result.2.selected oil, (result.2.find? oil).map (·.current.security))) =
      .ok ([(oil, ⟨[march, june], []⟩), (oil, ⟨[], [march]⟩)], [june], some ⟨0⟩) := by
    cbv
  obtain ⟨⟨diffs, a⟩, hhistory, hresult⟩ := Halt.map_eq_ok.1 hrun
  simp only [Prod.mk.injEq] at hresult
  obtain ⟨hdiffs, hselected, hentry⟩ := hresult
  obtain ⟨entry, hfind, hid⟩ := Option.map_eq_some_iff.1 hentry
  obtain ⟨security, hsecurity⟩ :
      ∃ security, (registry (.steps "" [.marketOpen])).security? ⟨0⟩ = some security :=
    Option.isSome_iff_exists.1 (by cbv)
  have hawaits : security.AwaitsOpen saturday [march] := by
    have hclosed : (((registry (.steps "" [.marketOpen])).security? ⟨0⟩).elim
        (.ok (some [])) (·.select saturday [march])) = .ok none := by
      cbv
    rw [hsecurity] at hclosed
    exact Security.select_eq_none_iff.1 hclosed
  obtain ⟨hreplay, -, hcalls⟩ := replay_eq_selected hhistory
  obtain ⟨hrepeat, hwaits⟩ := hcalls (registry (.steps "" [.marketOpen])) oil saturday [march]
  obtain ⟨after, hafter, hkept⟩ := hwaits entry security hfind (hid ▸ hsecurity) hawaits
  obtain ⟨-, -, -, again, hagain, -⟩ := hrepeat _ _ hafter
  refine ⟨diffs, a, after, again, hhistory, hdiffs, ?_, hafter, (hkept oil).trans hselected, hagain⟩
  rw [(hreplay oil).1, hselected]
  rfl

end ActiveUniverses

end FuturesChains
