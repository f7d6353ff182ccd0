import FuturesChains.Proofs.Calendar.EqualSteps
import FuturesChains.Proofs.Selection.ChainOwner
import FuturesChains.Proofs.Selection.DiffReplay

/-!
# The minimum time in a universe

The settings of a universe have a minimum time for selected contracts, and no selection asks for it.
`SelectionRecord` is a selection that was run, with all that it was given, and `records` are those
of a history. By `Stands.history` each change is decided by the answer of the filter and by the
answer that stood before, and `history_withMinimum` says that another minimum time leaves a history
as it is. The universes of a host's manager go through such a history in every run
(`Host.run_history`). `keepsMinimumTime_iff` joins these statements: a minimum time is kept exactly
if the filters keep it by themselves. No positive minimum time is kept by all of them
(`exists_not_keepsMinimumTime`).
-/

namespace FuturesChains

/-- A selection that was run for an active chain: the universe in force with the selection before,
the filters in the registry, the time, what was listed, and the change. -/
structure SelectionRecord where
  entry : ActiveChain
  registry : Registry
  time : Instant
  listed : List Symbol
  diff : SelectionDiff

namespace SelectionRecord

/-- The chain. -/
def chain (r : SelectionRecord) : Symbol := r.entry.chain

/-- The answer of the filter, or none while the selection is undecided. -/
def answer (r : SelectionRecord) : Except Halt (Option (List Symbol)) :=
  r.entry.current.select r.registry r.time r.listed

/-- The listed contracts of the chain that have not expired. -/
def live (r : SelectionRecord) : List Symbol :=
  match (r.registry.security? r.entry.current.security).bind (·.hours.localDate? r.time) with
  | some today => r.listed.filter (isLiveContract r.chain today)
  | none => []

end SelectionRecord

/-- The answer that stands for a chain after some records: that of its latest decided selection, and
no contracts before any. -/
def standing (chain : Symbol) (records : List SelectionRecord) : List Symbol :=
  records.foldl (fun contracts r =>
    if r.chain = chain then
      match r.answer with
      | .ok (some answer) => answer
      | _ => contracts
    else contracts) []

theorem standing_concat (chain : Symbol) (records : List SelectionRecord) (r : SelectionRecord) :
    standing chain (records ++ [r]) =
      if r.chain = chain then
        match r.answer with
        | .ok (some answer) => answer
        | _ => standing chain records
      else standing chain records := by
  rw [standing, List.foldl_append]
  rfl

namespace SelectionRecord

/-- A contract is in the answer of the filter. -/
def Takes (r : SelectionRecord) (c : Symbol) : Prop :=
  ∃ answer, r.answer = .ok (some answer) ∧ c ∈ answer

/-- A contract is left out of the answer of the filter, and the selection is decided. -/
def Drops (r : SelectionRecord) (c : Symbol) : Prop :=
  ∃ answer, r.answer = .ok (some answer) ∧ c ∉ answer

/-- A change takes out what stands before it and is dropped, and brings in what is taken and does
not stand. -/
def DecidedBy (r : SelectionRecord) (before : List Symbol) : Prop :=
  ∀ c, (c ∈ r.diff.added ↔ c ∉ before ∧ r.Takes c) ∧ (c ∈ r.diff.removed ↔ c ∈ before ∧ r.Drops c)

variable {r : SelectionRecord} {before next : List Symbol}

/-- After a selection its answer stands, or what stood before while it is undecided. -/
theorem mem_next_iff (hnext : r.entry.next r.registry r.time r.listed = .ok next)
    (hbefore : ∀ c, c ∈ r.entry.selected ↔ c ∈ before) (c : Symbol) :
    c ∈ next ↔ c ∈ match r.answer with
      | .ok (some answer) => answer
      | _ => before := by
  obtain ⟨answer, hanswer, rfl⟩ := Halt.map_eq_ok.1 hnext
  rw [SelectionRecord.answer, hanswer]
  cases answer with
  | none => exact hbefore c
  | some contracts => exact Symbol.mem_ascending

theorem decidedBy_of_next (hnext : r.entry.next r.registry r.time r.listed = .ok next)
    (hdiff : r.diff = .between r.entry.selected next)
    (hbefore : ∀ c, c ∈ r.entry.selected ↔ c ∈ before) : r.DecidedBy before := by
  intro c
  rw [hdiff, SelectionDiff.mem_removed_between, SelectionDiff.mem_added_between,
    mem_next_iff hnext hbefore, hbefore]
  split
  · rename_i answer hanswer
    simp [Takes, Drops, hanswer, and_comm]
  · rename_i hundecided
    have hnone : ∀ answer, r.answer ≠ .ok (some answer) := hundecided
    simp [Takes, Drops, hnone]

end SelectionRecord

/-- A time is before an interval that begins at another one is over. -/
def IsWithin (start : Instant) (interval : Span) (time : Instant) : Prop :=
  ∀ limit, start.add? interval = some limit → time < limit

/-- A contract that a change of a chain brings in is not taken out again before a minimum time is
over, as long as it is listed and has not expired. -/
def KeepsMinimumTime (chain : Symbol) (minimum : Span) (records : List SelectionRecord) : Prop :=
  ∀ (i j : Nat) (earlier later : SelectionRecord), i < j →
    records[i]? = some earlier → records[j]? = some later →
    earlier.chain = chain → later.chain = chain → ∀ c ∈ earlier.diff.added,
      IsWithin earlier.time minimum later.time → c ∈ later.live → c ∉ later.diff.removed

/-- The filters of a chain keep a minimum time by themselves: a contract that comes to stand with
their answer is not dropped before it is over, as long as it stands, is listed and has not
expired. -/
def FiltersKeep (chain : Symbol) (minimum : Span) (records : List SelectionRecord) : Prop :=
  ∀ (i j : Nat) (earlier later : SelectionRecord), i < j →
    records[i]? = some earlier → records[j]? = some later →
    earlier.chain = chain → later.chain = chain →
      ∀ c, c ∉ standing chain (records.take i) → earlier.Takes c →
        c ∈ standing chain (records.take j) → IsWithin earlier.time minimum later.time →
          c ∈ later.live → ¬ later.Drops c

namespace ActiveUniverses

/-- The record of an action, if it runs the selection of an active chain. -/
def record? (a : ActiveUniverses) : UniverseAction → Option SelectionRecord
  | .add _ => none
  | .run registry chain time listed =>
    match a.find? chain, a.run registry chain time listed with
    | some entry, .ok (some diff, _) => some ⟨entry, registry, time, listed, diff⟩
    | _, _ => none

/-- The selections that some actions run, in order. -/
def records (a : ActiveUniverses) : List UniverseAction → List SelectionRecord
  | [] => []
  | action :: rest =>
    (a.record? action).toList ++ match a.act action with
      | .error _ => []
      | .ok (_, a) => a.records rest

/-- A history that goes on after an action. -/
theorem history_cons_eq_ok {a after : ActiveUniverses} {action : UniverseAction}
    {rest : List UniverseAction} {diffs : List (Symbol × SelectionDiff)}
    (h : a.history (action :: rest) = .ok (diffs, after)) :
    ∃ first mid later, a.act action = .ok (first, mid) ∧ mid.history rest = .ok (later, after) ∧
      diffs = first ++ later ∧
      a.records (action :: rest) = (a.record? action).toList ++ mid.records rest := by
  simp only [history, Halt.bind_eq_ok] at h
  obtain ⟨⟨first, mid⟩, hact, ⟨later, last⟩, hrest, h⟩ := h
  cases h
  exact ⟨first, mid, later, hact, hrest, rfl, by simp only [records, hact]⟩

/-- An action reports the change of its record. -/
theorem act_diffs {a after : ActiveUniverses} {action : UniverseAction}
    {diffs : List (Symbol × SelectionDiff)} (h : a.act action = .ok (diffs, after)) :
    diffs = ((a.record? action).map fun r => (r.chain, r.diff)).toList := by
  cases action with
  | add u =>
      cases h
      rfl
  | run registry chain time listed =>
      simp only [act, Halt.bind_eq_ok] at h
      obtain ⟨⟨diff, mid⟩, hrun, h⟩ := h
      cases h
      cases run_iff.1 hrun with
      | inactive hfind => simp [record?, hfind]
      | active entry next hfind hnext =>
          simp [record?, hfind, hrun, SelectionRecord.chain, chain_of_find? hfind]

theorem history_diffs {a after : ActiveUniverses} {actions : List UniverseAction}
    {diffs : List (Symbol × SelectionDiff)} (h : a.history actions = .ok (diffs, after)) :
    diffs = (a.records actions).map fun r => (r.chain, r.diff) := by
  induction actions generalizing a diffs with
  | nil =>
      cases h
      rfl
  | cons action rest ih =>
      obtain ⟨first, mid, later, hact, hrest, rfl, hrecords⟩ := history_cons_eq_ok h
      rw [hrecords, ih hrest, act_diffs hact, List.map_append]
      cases a.record? action <;> rfl

/-- The selections in force are the answers that stand after some records. -/
def Stands (a : ActiveUniverses) (past : List SelectionRecord) : Prop :=
  ∀ chain c, c ∈ a.selected chain ↔ c ∈ standing chain past

variable {a after : ActiveUniverses} {past : List SelectionRecord}

/-- An action changes the selections by the answer of the filter of its record. -/
theorem Stands.act {action : UniverseAction} {diffs : List (Symbol × SelectionDiff)}
    (hstands : a.Stands past) (h : a.act action = .ok (diffs, after)) :
    after.Stands (past ++ (a.record? action).toList) ∧
      ∀ r ∈ a.record? action, r.DecidedBy (standing r.chain past) := by
  cases action with
  | add u =>
      cases h
      refine ⟨fun chain c => ?_, by simp [record?]⟩
      rw [selected_add]
      simpa [record?] using hstands chain c
  | run registry target time listed =>
      simp only [ActiveUniverses.act, Halt.bind_eq_ok] at h
      obtain ⟨⟨diff, mid⟩, hrun, h⟩ := h
      cases h
      cases run_iff.1 hrun with
      | inactive hfind => exact ⟨by simpa [record?, hfind] using hstands, by simp [record?, hfind]⟩
      | active entry next hfind hnext =>
          have hrecord : a.record? (.run registry target time listed) =
              some ⟨entry, registry, time, listed, .between entry.selected next⟩ := by
            simp only [record?, hfind, hrun]
          obtain rfl := chain_of_find? hfind
          have hbefore : ∀ c, c ∈ entry.selected ↔ c ∈ standing entry.chain past := fun c => by
            rw [← hstands, selected_of_find? hfind]
          rw [hrecord]
          constructor
          · intro chain c
            rw [Option.toList_some, standing_concat, selected_replace hfind, SelectionRecord.chain]
            by_cases hchain : entry.chain = chain
            · subst hchain
              rw [if_pos rfl, if_pos rfl]
              exact SelectionRecord.mem_next_iff (r := ⟨entry, registry, time, listed, _⟩) hnext
                hbefore c
            · rw [if_neg hchain, if_neg hchain]
              exact hstands chain c
          · intro r hr
            obtain rfl := Option.some.inj hr
            exact SelectionRecord.decidedBy_of_next hnext rfl hbefore

/-- Along a history every change is decided by the answer of its filter, by induction on the actions
with the records so far. -/
theorem Stands.history {actions : List UniverseAction} {diffs : List (Symbol × SelectionDiff)}
    (hstands : a.Stands past) (h : a.history actions = .ok (diffs, after)) {earlier later}
    {r : SelectionRecord} (hr : a.records actions = earlier ++ r :: later) :
    r.DecidedBy (standing r.chain (past ++ earlier)) := by
  induction actions generalizing a past diffs earlier with
  | nil => simp [records] at hr
  | cons action rest ih =>
      obtain ⟨first, mid, more, hact, hrest, -, hrecords⟩ := history_cons_eq_ok h
      obtain ⟨hmid, hdecided⟩ := hstands.act hact
      rw [hrecords] at hr
      cases hrecord : a.record? action with
      | none =>
          rw [hrecord] at hr hmid
          rw [Option.toList_none, List.append_nil] at hmid
          exact ih hmid hrest hr
      | some found =>
          rw [hrecord] at hr hmid
          cases earlier with
          | nil =>
              obtain ⟨rfl, -⟩ := List.cons.inj hr
              rw [List.append_nil]
              exact hdecided found hrecord
          | cons head tail =>
              obtain ⟨rfl, htail⟩ := List.cons.inj hr
              have hlater := ih hmid hrest htail
              rwa [Option.toList_some, List.append_assoc, List.singleton_append] at hlater

theorem Stands.history_getElem? {actions : List UniverseAction}
    {diffs : List (Symbol × SelectionDiff)} (hstands : a.Stands [])
    (h : a.history actions = .ok (diffs, after)) {i : Nat} {r : SelectionRecord}
    (hr : (a.records actions)[i]? = some r) :
    r.DecidedBy (standing r.chain ((a.records actions).take i)) := by
  obtain ⟨hi, rfl⟩ := List.getElem?_eq_some_iff.1 hr
  have hsplit : a.records actions = (a.records actions).take i ++
      (a.records actions)[i] :: (a.records actions).drop (i + 1) := by
    rw [← List.drop_eq_getElem_cons hi, List.take_append_drop]
  exact hstands.history h hsplit

end ActiveUniverses

/-- Where changes are decided by answers, a minimum time is kept if the filters keep it. -/
theorem keepsMinimumTime_iff_filtersKeep {chain : Symbol} {minimum : Span}
    {records : List SelectionRecord}
    (hdecided : ∀ (i : Nat) (r : SelectionRecord), records[i]? = some r →
      r.DecidedBy (standing r.chain (records.take i))) :
    KeepsMinimumTime chain minimum records ↔ FiltersKeep chain minimum records := by
  constructor
  · rintro h i j earlier later hij hi hj rfl hchain c hnew htakes hold hwithin hlive hdrops
    refine h i j earlier later hij hi hj rfl hchain c ?_ hwithin hlive ?_
    · exact (hdecided i earlier hi c).1.2 ⟨hnew, htakes⟩
    · exact (hdecided j later hj c).2.2 ⟨hchain ▸ hold, hdrops⟩
  · rintro h i j earlier later hij hi hj rfl hchain c hadded hwithin hlive hremoved
    obtain ⟨hnew, htakes⟩ := (hdecided i earlier hi c).1.1 hadded
    obtain ⟨hold, hdrops⟩ := (hdecided j later hj c).2.1 hremoved
    exact h i j earlier later hij hi hj rfl hchain c hnew htakes (hchain ▸ hold) hwithin hlive
      hdrops

section Minimum

variable (minimum : Symbol → Span)

/-- A universe with the minimum time of its chain in its settings. -/
def ChainUniverse.withMinimum (u : ChainUniverse) : ChainUniverse :=
  { u with settings := { u.settings with minimumTimeInUniverse := minimum u.chain } }

def ActiveChain.withMinimum (entry : ActiveChain) : ActiveChain :=
  { entry with current := entry.current.withMinimum minimum }

def ActiveUniverses.withMinimum (a : ActiveUniverses) : ActiveUniverses :=
  ⟨a.chains.map (·.withMinimum minimum)⟩

def UniverseAction.withMinimum : UniverseAction → UniverseAction
  | .add u => .add (u.withMinimum minimum)
  | .run registry chain time listed => .run registry chain time listed

def SelectionRecord.withMinimum (r : SelectionRecord) : SelectionRecord :=
  { r with entry := r.entry.withMinimum minimum }

@[simp]
theorem ActiveChain.chain_withMinimum (entry : ActiveChain) :
    (entry.withMinimum minimum).chain = entry.chain := rfl

/-- A selection does not ask for the minimum time. -/
theorem ActiveChain.run_withMinimum (entry : ActiveChain) (r : Registry) (now : Instant)
    (available : List Symbol) : (entry.withMinimum minimum).run r now available =
      (entry.run r now available).map fun result => (result.1, result.2.withMinimum minimum) := by
  have hselect : (entry.withMinimum minimum).current.select r now available =
    entry.current.select r now available := rfl
  unfold run
  rw [hselect]
  cases entry.current.select r now available with
  | error stop => rfl
  | ok answer => cases answer <;> rfl

namespace ActiveUniverses

theorem find?_withMinimum (a : ActiveUniverses) (chain : Symbol) :
    (a.withMinimum minimum).find? chain = (a.find? chain).map (·.withMinimum minimum) := by
  simp only [find?, withMinimum, List.find?_map]
  rfl

theorem insertChain_withMinimum (entry : ActiveChain) (entries : List ActiveChain) :
    insertChain (entry.withMinimum minimum) (entries.map (·.withMinimum minimum)) =
      (insertChain entry entries).map (·.withMinimum minimum) := by
  induction entries with
  | nil => rfl
  | cons other rest ih =>
      simp only [insertChain, List.map_cons, ActiveChain.chain_withMinimum, ih]
      by_cases hbefore : entry.chain.compare other.chain = .lt
      · simp only [hbefore, if_true, List.map_cons]
      · simp only [hbefore, if_false, List.map_cons]

theorem add_withMinimum (a : ActiveUniverses) (u : ChainUniverse) :
    ((a.withMinimum minimum).add (u.withMinimum minimum)).2 =
      (a.add u).2.withMinimum minimum := by
  have hchain : (u.withMinimum minimum).chain = u.chain := rfl
  have hcontains : (a.withMinimum minimum).contains u.chain = a.contains u.chain := by
    rw [contains, find?_withMinimum, Option.isSome_map, contains]
  unfold add
  rw [hchain, hcontains]
  split
  · simp only [withMinimum, List.map_map]
    congr 1
    refine List.map_congr_left fun entry _ => ?_
    exact (apply_ite (ActiveChain.withMinimum minimum) (entry.chain = u.chain)
      { entry with current := u } entry).symm
  · exact congrArg ActiveUniverses.mk (insertChain_withMinimum minimum ⟨u, []⟩ a.chains)

theorem replace_withMinimum (a : ActiveUniverses) (entry : ActiveChain) :
    (a.withMinimum minimum).replace (entry.withMinimum minimum) =
      (a.replace entry).withMinimum minimum := by
  simp only [replace, withMinimum, List.map_map]
  congr 1
  refine List.map_congr_left fun other _ => ?_
  exact (apply_ite (ActiveChain.withMinimum minimum) _ _ _).symm

theorem run_withMinimum (a : ActiveUniverses) (r : Registry) (chain : Symbol) (now : Instant)
    (available : List Symbol) : (a.withMinimum minimum).run r chain now available =
      (a.run r chain now available).map fun result => (result.1, result.2.withMinimum minimum) := by
  unfold run
  rw [find?_withMinimum]
  cases a.find? chain with
  | none => rfl
  | some entry =>
      simp only [Option.map_some, ActiveChain.run_withMinimum]
      cases entry.run r now available with
      | error stop => rfl
      | ok result =>
          simp only [Except.map, bind, Except.bind, pure, Except.pure, replace_withMinimum]

theorem act_withMinimum (a : ActiveUniverses) (action : UniverseAction) :
    (a.withMinimum minimum).act (action.withMinimum minimum) =
      (a.act action).map fun result => (result.1, result.2.withMinimum minimum) := by
  cases action with
  | add u => simp only [UniverseAction.withMinimum, act, add_withMinimum, Except.map]
  | run registry chain time listed =>
      simp only [UniverseAction.withMinimum, act, run_withMinimum]
      cases a.run registry chain time listed <;> rfl

/-- Another minimum time leaves all changes of a history as they are. -/
theorem history_withMinimum (a : ActiveUniverses) (actions : List UniverseAction) :
    (a.withMinimum minimum).history (actions.map (·.withMinimum minimum)) =
      (a.history actions).map fun result => (result.1, result.2.withMinimum minimum) := by
  induction actions generalizing a with
  | nil => rfl
  | cons action rest ih =>
      simp only [List.map_cons, history, act_withMinimum]
      cases a.act action with
      | error stop => rfl
      | ok result =>
          simp only [Except.map, bind, Except.bind, ih]
          cases result.2.history rest <;> rfl

end ActiveUniverses

end Minimum

theorem ActiveUniverses.history_append {a mid after : ActiveUniverses}
    {first later : List UniverseAction} {diffs more : List (Symbol × SelectionDiff)}
    (hfirst : a.history first = .ok (diffs, mid)) (hlater : mid.history later = .ok (more, after)) :
    a.history (first ++ later) = .ok (diffs ++ more, after) := by
  induction first generalizing a diffs with
  | nil =>
      cases hfirst
      exact hlater
  | cons action rest ih =>
      obtain ⟨found, next, others, hact, hrest, rfl, -⟩ := history_cons_eq_ok hfirst
      rw [List.cons_append, List.append_assoc]
      simp only [history, Halt.bind_eq_ok]
      exact ⟨_, hact, _, ih hrest, rfl⟩

theorem ActiveUniverses.history_map_add (a : ActiveUniverses) (given : List ChainUniverse) :
    a.history (given.map .add) = .ok ([], a.addAll given) := by
  induction given generalizing a with
  | nil => rfl
  | cons u rest ih =>
      simp only [List.map_cons, history, Halt.bind_eq_ok]
      exact ⟨_, rfl, _, ih _, rfl⟩

namespace Host

/-- What an action of a host does to the universes of its manager. -/
def universeActions (h : Host) : HostAction → List UniverseAction
  | .step =>
    match h.manager.step h.engine with
    | .error _ => []
    | .ok (reports, _, _) => (reports.flatMap (·.universes)).map .add
  | .feed chain contracts => [.run h.engine.registry chain h.engine.clock contracts]
  | _ => []

/-- What some actions of a host do to the universes of its manager, in order. -/
def universeHistory (h : Host) : List HostAction → List UniverseAction
  | [] => []
  | action :: rest =>
    h.universeActions action ++ match h.act action with
      | .error _ => []
      | .ok (_, h) => h.universeHistory rest

/-- An action of a host is a history of the universes of its manager. -/
theorem act_history {h after : Host} {action : HostAction} {given : List ChainUniverse}
    (hact : h.act action = .ok (given, after)) : ∃ diffs,
      h.manager.universes.history (h.universeActions action) =
        .ok (diffs, after.manager.universes) := by
  cases action with
  | hold | setFilter | manage | setDefaultSettings | setDefaultInitializer | setClock | advance =>
      cases hact
      exact ⟨[], rfl⟩
  | handOver number | refresh number ctx =>
      simp only [act] at hact
      split at hact <;> cases hact <;> exact ⟨[], rfl⟩
  | resolve number ctx symbol | pull number =>
      simp only [act] at hact
      split at hact
      · cases hact
        exact ⟨[], rfl⟩
      · rw [Halt.bind_eq_ok] at hact
        obtain ⟨⟨result, engine⟩, -, hact⟩ := hact
        cases result <;> cases hact <;> exact ⟨[], rfl⟩
  | step =>
      obtain ⟨reports, manager, engine, hstep, rfl, rfl⟩ := act_step_iff.1 hact
      simp only [universeActions, hstep, SelectionManager.universes_step hstep]
      exact ⟨[], ActiveUniverses.history_map_add _ _⟩
  | feed chain contracts =>
      simp only [act, SelectionManager.onChainContracts, Halt.bind_eq_ok] at hact
      obtain ⟨_, ⟨⟨diff, universes⟩, hrun, hfed⟩, hact⟩ := hact
      cases hfed
      cases hact
      simp only [universeActions, ActiveUniverses.history, ActiveUniverses.act, Halt.bind_eq_ok]
      exact ⟨_, _, ⟨_, hrun, rfl⟩, _, rfl, rfl⟩

/-- A run of a host is a history of the universes of its manager. -/
theorem run_history {h after : Host} {actions : List HostAction} {given : List ChainUniverse}
    (hrun : h.run actions = .ok (given, after)) : ∃ diffs,
      h.manager.universes.history (h.universeHistory actions) =
        .ok (diffs, after.manager.universes) := by
  induction actions generalizing h given with
  | nil =>
      cases hrun
      exact ⟨[], rfl⟩
  | cons action rest ih =>
      obtain ⟨first, mid, more, hact, hrest, -, -⟩ := run_cons_eq_ok hrun
      obtain ⟨diffs, hdiffs⟩ := act_history hact
      obtain ⟨later, hlater⟩ := ih hrest
      simp only [universeHistory, hact]
      exact ⟨_, ActiveUniverses.history_append hdiffs hlater⟩

end Host

/-- A contract that the first of two changes of a chain brought in and the second takes out breaks a
minimum time that was not over, if it is live. -/
theorem not_keepsMinimumTime {records : List SelectionRecord} {chain c : Symbol} {minimum : Span}
    {first second : Instant} {listed live : List Symbol} {diff later : SelectionDiff}
    (h : records.map (fun r => (r.chain, r.time, r.live, r.diff)) =
      [(chain, first, listed, diff), (chain, second, live, later)])
    (hadded : c ∈ diff.added) (hwithin : IsWithin first minimum second) (hlive : c ∈ live)
    (hremoved : c ∈ later.removed) : ¬ KeepsMinimumTime chain minimum records := by
  intro hkeeps
  obtain ⟨r, rest, rfl, hr, hrest⟩ := List.map_eq_cons_iff.1 h
  obtain ⟨r', _, rfl, hr', -⟩ := List.map_eq_cons_iff.1 hrest
  simp only [Prod.mk.injEq] at hr hr'
  obtain ⟨hchain, rfl, -, rfl⟩ := hr
  obtain ⟨hchain', rfl, rfl, rfl⟩ := hr'
  exact hkeeps 0 1 r r' (by decide) rfl rfl hchain hchain' c hadded hwithin hlive hremoved

/-- No positive minimum time is kept by all histories: a filter for the front month takes March out
at once when February is listed. -/
theorem exists_not_keepsMinimumTime {minimum : Span} (hminimum : 0 < minimum.seconds) :
    ∃ actions diffs a chain, ActiveUniverses.empty.history actions = .ok (diffs, a) ∧
      (∀ u, .add u ∈ actions →
        u.settings = { UniverseSettings.standard with minimumTimeInUniverse := minimum }) ∧
      ((ActiveUniverses.empty.records actions).map (·.time)).Pairwise (· ≤ ·) ∧
      ¬ KeepsMinimumTime chain minimum (ActiveUniverses.empty.records actions) := by
  let oil : Symbol := .undated "CL" .future .nymex
  let february : Symbol := .future "CL" .nymex ⟨45, by decide, by decide⟩
  let march : Symbol := .future "CL" .nymex ⟨70, by decide, by decide⟩
  let request : SecurityRequest := (Facilities.traded .standard).request oil
    ⟨.ofExchange .nymex, .newYork⟩ ⟨"", .usd, .one, .one, .one, .one, none⟩ .standard []
  let registry : Registry := (Registry.empty.insert
    ((request.security request.subscription).attach (.steps "" [.frontMonth]))).2
  let u : ChainUniverse :=
    ⟨oil, ⟨0⟩, { UniverseSettings.standard with minimumTimeInUniverse := minimum }, []⟩
  let actions : List UniverseAction :=
    [.add u, .run registry oil default [march], .run registry oil default [february, march]]
  have hhistory : (ActiveUniverses.empty.history actions).map (·.1) =
      .ok [(oil, ⟨[march], []⟩), (oil, ⟨[february], [march]⟩)] := by
    cbv
  have hrecords : (ActiveUniverses.empty.records actions).map
      (fun r => (r.chain, r.time, r.live, r.diff)) =
        [(oil, default, [march], ⟨[march], []⟩),
          (oil, default, [february, march], ⟨[february], [march]⟩)] := by
    cbv
  obtain ⟨⟨diffs, a⟩, hhistory, -⟩ := Halt.map_eq_ok.1 hhistory
  refine ⟨actions, diffs, a, oil, hhistory, ?_, ?_, ?_⟩
  · intro added hadded
    obtain rfl : added = u := by simpa [actions] using hadded
    rfl
  · have htimes := congrArg (List.map (·.2.1)) hrecords
    rw [List.map_map] at htimes
    exact htimes ▸ (show [(default : Instant), default].Pairwise (· ≤ ·) by decide)
  · refine not_keepsMinimumTime hrecords (c := march) (by simp) (fun limit hlimit => ?_)
      (by simp) (by simp)
    exact Instant.lt_of_add? (by simp only; omega) hlimit

/-- Which contracts of a chain come in and go out along a history is decided by the answers of its
filters alone, so a minimum time is kept exactly if the filters keep it by themselves. The settings
have no part in it: with any other minimum times the changes are the same. Whatever a selection
manager does to its universes is such a history. -/
theorem keepsMinimumTime_iff {actions : List UniverseAction}
    {diffs : List (Symbol × SelectionDiff)} {a : ActiveUniverses}
    (h : ActiveUniverses.empty.history actions = .ok (diffs, a)) :
    diffs = (ActiveUniverses.empty.records actions).map (fun r => (r.chain, r.diff)) ∧
    (∀ (i : Nat) (r : SelectionRecord), (ActiveUniverses.empty.records actions)[i]? = some r →
      r.DecidedBy (standing r.chain ((ActiveUniverses.empty.records actions).take i))) ∧
    (∀ chain minimum, KeepsMinimumTime chain minimum (ActiveUniverses.empty.records actions) ↔
      FiltersKeep chain minimum (ActiveUniverses.empty.records actions)) ∧
    (∀ minimum, ActiveUniverses.empty.history (actions.map (·.withMinimum minimum)) =
      .ok (diffs, a.withMinimum minimum)) ∧
    ∀ facilities clock steps given host,
      (Host.start facilities clock).run steps = .ok (given, host) → ∃ changes,
        ActiveUniverses.empty.history ((Host.start facilities clock).universeHistory steps) =
          .ok (changes, host.manager.universes) := by
  have hstart : ActiveUniverses.empty.Stands [] := fun chain c => Iff.rfl
  have hdecided := fun i r => hstart.history_getElem? h (i := i) (r := r)
  refine ⟨ActiveUniverses.history_diffs h, hdecided, fun chain minimum => ?_, fun minimum => ?_,
    fun facilities clock steps given host => Host.run_history⟩
  · exact keepsMinimumTime_iff_filtersKeep hdecided
  · have hsame := ActiveUniverses.history_withMinimum minimum .empty actions
    rw [h] at hsame
    exact hsame

/-- A manager selects the front month of crude oil under the standard settings; March is listed at
first, and an hour later February too. -/
def earlyRoll : List HostAction :=
  let oil : Symbol := .undated "CL" .future .nymex
  let february : Symbol := .future "CL" .nymex ⟨45, by decide, by decide⟩
  let march : Symbol := .future "CL" .nymex ⟨70, by decide, by decide⟩
  [.manage ⟨(⟨86400⟩ : Span), .standing [oil], none, none, .steps "" [.frontMonth]⟩, .step,
    .feed oil [march], .advance (⟨3600⟩ : Span), .feed oil [february, march]]

theorem run_earlyRoll : ((Host.start (.traded .standard) default).run earlyRoll).map
    (fun result => result.1.map fun u => (u.chain, u.settings)) =
      .ok [(.undated "CL" .future .nymex, .standard)] := by
  cbv

theorem records_earlyRoll : (ActiveUniverses.empty.records
    ((Host.start (.traded .standard) default).universeHistory earlyRoll)).map
      (fun r => (r.chain, r.time, r.live, r.diff)) =
    let oil : Symbol := .undated "CL" .future .nymex
    let february : Symbol := .future "CL" .nymex ⟨45, by decide, by decide⟩
    let march : Symbol := .future "CL" .nymex ⟨70, by decide, by decide⟩
    [(oil, default, [march], ⟨[march], []⟩),
      (oil, ⟨3600, 0, by decide⟩, [february, march], ⟨[february], [march]⟩)] := by
  cbv

theorem not_keepsMinimumTime_earlyRoll : ¬ KeepsMinimumTime (.undated "CL" .future .nymex)
    UniverseSettings.standard.minimumTimeInUniverse (ActiveUniverses.empty.records
      ((Host.start (.traded .standard) default).universeHistory earlyRoll)) := by
  refine not_keepsMinimumTime records_earlyRoll
    (c := .future "CL" .nymex ⟨70, by decide, by decide⟩) (by simp) (fun limit hlimit => ?_)
    (by simp) (by simp)
  obtain ⟨hsecond, -⟩ := Instant.parts_add?_of_span (by decide) hlimit
  exact .inl (by rw [hsecond]; decide)

/-- A filter for the front month does not keep a day by itself, and with no minimum time in the
settings the changes are the same. -/
theorem keepsMinimumTime_iff_early_roll :
    ∃ given h changes, (Host.start (.traded .standard) default).run earlyRoll = .ok (given, h) ∧
      ActiveUniverses.empty.history
          ((Host.start (.traded .standard) default).universeHistory earlyRoll) =
        .ok (changes, h.manager.universes) ∧
      ¬ FiltersKeep (.undated "CL" .future .nymex) ⟨86400⟩ (ActiveUniverses.empty.records
        ((Host.start (.traded .standard) default).universeHistory earlyRoll)) ∧
      ActiveUniverses.empty.history
          (((Host.start (.traded .standard) default).universeHistory earlyRoll).map
            (·.withMinimum fun _ => ⟨0⟩)) =
        .ok (changes, h.manager.universes.withMinimum fun _ => ⟨0⟩) := by
  obtain ⟨⟨given, h⟩, hrun, -⟩ := Halt.map_eq_ok.1 run_earlyRoll
  obtain ⟨changes, hhistory⟩ := Host.run_history hrun
  obtain ⟨-, -, hkeeps, hminimum, -⟩ := keepsMinimumTime_iff hhistory
  exact ⟨given, h, changes, hrun, hhistory, mt (hkeeps _ _).2 not_keepsMinimumTime_earlyRoll,
    hminimum _⟩

/-- By the standard settings a contract stays for a day, and yet March, which came in as the front
month, goes out an hour later for February. -/
theorem minimum_time_not_kept :
    (∃ given h, (Host.start (.traded .standard) default).run earlyRoll = .ok (given, h) ∧
      ∀ u ∈ given, u.settings = .standard) ∧
    ¬ KeepsMinimumTime (.undated "CL" .future .nymex)
      UniverseSettings.standard.minimumTimeInUniverse (ActiveUniverses.empty.records
        ((Host.start (.traded .standard) default).universeHistory earlyRoll)) := by
  obtain ⟨⟨given, h⟩, hrun, hgiven⟩ := Halt.map_eq_ok.1 run_earlyRoll
  refine ⟨⟨given, h, hrun, fun u hu => ?_⟩, not_keepsMinimumTime_earlyRoll⟩
  have hmem := List.mem_map_of_mem (f := fun u => (u.chain, u.settings)) hu
  rw [hgiven, List.mem_singleton] at hmem
  exact congrArg (·.2) hmem

end FuturesChains
