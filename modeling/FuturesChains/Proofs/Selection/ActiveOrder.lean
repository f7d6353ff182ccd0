import FuturesChains.Proofs.Instrument.SymbolOrder
import FuturesChains.Proofs.Selection.ChainOwner

/-!
# The order and the securities of active universes

Along every run of a host the universes in force stand in ascending order of their chains, and every
one of them holds the security that the registry leads to from its chain (`Host.Backed`). So what is
found for every chain determines the whole list.
-/

namespace FuturesChains

namespace Symbol.IsAscending

variable {symbols others : List Symbol}

theorem nodup (h : Symbol.IsAscending symbols) : symbols.Nodup := by
  refine h.imp ?_
  rintro a b hlt rfl
  have hself : a.compare a = .eq := Std.ReflCmp.compare_self
  rw [hself] at hlt
  cases hlt

/-- No two ascending lists have the same symbols. -/
theorem eq_of_mem_iff (h : Symbol.IsAscending symbols) (h' : Symbol.IsAscending others)
    (hmem : ∀ s, s ∈ symbols ↔ s ∈ others) : symbols = others := by
  refine List.Perm.eq_of_pairwise ?_ h h' ((List.perm_ext_iff_of_nodup h.nodup h'.nodup).2 hmem)
  intro a b _ _ hab hba
  exact absurd hba (Std.OrientedCmp.not_lt_of_lt hab)

end Symbol.IsAscending

namespace ActiveUniverses

variable {a : ActiveUniverses} {entry : ActiveChain} {entries : List ActiveChain}

/-- The chains stand in strictly ascending order. -/
def Ordered (a : ActiveUniverses) : Prop := Symbol.IsAscending (a.chains.map (·.chain))

theorem mem_insertChain {other : ActiveChain} :
    other ∈ insertChain entry entries ↔ other = entry ∨ other ∈ entries := by
  induction entries with
  | nil => simp [insertChain]
  | cons head rest ih =>
      unfold insertChain
      split
      · simp
      · simp [ih, or_left_comm]

/-- An entry of a new chain is put into its place. -/
theorem isAscending_insertChain (h : Symbol.IsAscending (entries.map (·.chain)))
    (hnew : entry.chain ∉ entries.map (·.chain)) :
    Symbol.IsAscending ((insertChain entry entries).map (·.chain)) := by
  induction entries with
  | nil => exact List.pairwise_singleton ..
  | cons other rest ih =>
      obtain ⟨hfirst, hrest⟩ := List.pairwise_cons.1 h
      rw [List.map_cons, List.mem_cons, not_or] at hnew
      unfold insertChain
      split
      · rename_i hlt
        refine List.pairwise_cons.2 ⟨fun chain hchain => ?_, h⟩
        rcases List.mem_cons.1 hchain with rfl | hchain
        · exact hlt
        · exact Std.TransCmp.lt_trans hlt (hfirst chain hchain)
      · rename_i hnot
        have hlt : other.chain.compare entry.chain = .lt := by
          have hswap : other.chain.compare entry.chain =
            (entry.chain.compare other.chain).swap := Std.OrientedCmp.eq_swap
          cases hcompare : entry.chain.compare other.chain with
          | lt => exact absurd hcompare hnot
          | eq => exact absurd (Std.LawfulEqCmp.eq_of_compare hcompare) hnew.1
          | gt => rw [hswap, hcompare]; rfl
        refine List.pairwise_cons.2 ⟨fun chain hchain => ?_, ih hrest hnew.2⟩
        rcases List.mem_cons.1 ((chains_insertChain_perm entry rest).mem_iff.1 hchain) with
          rfl | hchain
        · exact hlt
        · exact hfirst chain hchain

theorem Ordered.add (h : a.Ordered) (u : ChainUniverse) : (a.add u).2.Ordered := by
  unfold ActiveUniverses.add
  split
  · unfold Ordered
    rwa [chains_change u.chain (fun entry => { entry with current := u }) fun _ _ => rfl]
  · rename_i hinactive
    exact isAscending_insertChain h fun hmem => hinactive (contains_iff.2 hmem)

theorem Ordered.addAll (h : a.Ordered) (given : List ChainUniverse) :
    (a.addAll given).Ordered := by
  induction given generalizing a with
  | nil => exact h
  | cons u rest ih => exact ih (h.add u)

/-- What holds of the universes in force and of one that is put in force holds of all after it. -/
theorem forall_current_add {P : ChainUniverse → Prop} {u : ChainUniverse}
    (h : ∀ entry ∈ a.chains, P entry.current) (hu : P u) :
    ∀ entry ∈ (a.add u).2.chains, P entry.current := by
  intro entry hentry
  unfold ActiveUniverses.add at hentry
  split at hentry
  · obtain ⟨old, hold, rfl⟩ := List.mem_map.1 hentry
    split
    · exact hu
    · exact h old hold
  · rcases mem_insertChain.1 hentry with rfl | hold
    · exact hu
    · exact h entry hold

theorem forall_current_addAll {P : ChainUniverse → Prop} {given : List ChainUniverse}
    (h : ∀ entry ∈ a.chains, P entry.current) (hgiven : ∀ u ∈ given, P u) :
    ∀ entry ∈ (a.addAll given).chains, P entry.current := by
  induction given generalizing a with
  | nil => exact h
  | cons u rest ih =>
      obtain ⟨hu, hrest⟩ := List.forall_mem_cons.1 hgiven
      exact ih (forall_current_add h hu) hrest

/-- A run of a selection puts no universe in force and moves none. -/
theorem Ordered.run {after : ActiveUniverses} {r : Registry} {chain : Symbol} {now : Instant}
    {available : List Symbol} {diff : Option SelectionDiff} (h : a.Ordered)
    (hrun : a.run r chain now available = .ok (diff, after)) : after.Ordered := by
  cases run_iff.1 hrun with
  | inactive => exact h
  | active entry next hfind =>
      unfold Ordered
      rwa [chains_replace]

theorem forall_current_run {P : ChainUniverse → Prop} {after : ActiveUniverses} {r : Registry}
    {chain : Symbol} {now : Instant} {available : List Symbol} {diff : Option SelectionDiff}
    (h : ∀ entry ∈ a.chains, P entry.current)
    (hrun : a.run r chain now available = .ok (diff, after)) :
    ∀ entry ∈ after.chains, P entry.current := by
  cases run_iff.1 hrun with
  | inactive => exact h
  | active entry next hfind =>
      intro other hother
      obtain ⟨old, hold, rfl⟩ := List.mem_map.1 hother
      split
      · exact h entry (List.mem_of_find?_eq_some hfind)
      · exact h old hold

end ActiveUniverses

/-- The universes in force stand in the order of their chains, and the registry leads from every
chain to the security of its universe. -/
structure Host.Backed (h : Host) : Prop where
  ordered : h.manager.universes.Ordered
  held : ∀ entry ∈ h.manager.universes.chains,
    h.engine.registry.find? entry.current.chain = some entry.current.security

namespace Host

variable {h after : Host} {given : List ChainUniverse}

theorem backed_start (facilities : Facilities) (clock : Instant) :
    (start facilities clock).Backed where
  ordered := List.Pairwise.nil
  held := by simp [start, SelectionManager.empty, ActiveUniverses.empty]

/-- An action keeps the order and the securities. -/
theorem act_backed {action : HostAction} (hact : h.act action = .ok (given, after))
    (hkeyed : h.engine.ChainKeyed) (hbacked : h.Backed) : after.Backed := by
  obtain ⟨-, hkept, hgiven⟩ := act_registry hact hkeyed
  have hheld : ∀ entry ∈ h.manager.universes.chains,
      after.engine.registry.find? entry.current.chain = some entry.current.security :=
    fun entry hentry => hkept _ _ (hbacked.held entry hentry)
  rcases act_universes hact with ⟨-, hsame⟩ | hadded | ⟨-, chain, contracts, diff, hrun⟩
  · refine ⟨?_, ?_⟩
    · rw [hsame]
      exact hbacked.ordered
    · rw [hsame]
      exact hheld
  · refine ⟨?_, ?_⟩
    · rw [hadded]
      exact hbacked.ordered.addAll given
    · rw [hadded]
      exact ActiveUniverses.forall_current_addAll hheld hgiven
  · exact ⟨hbacked.ordered.run hrun, ActiveUniverses.forall_current_run
      (P := fun u => after.engine.registry.find? u.chain = some u.security) hheld hrun⟩

/-- A run keeps the order and the securities, by induction on its actions. -/
theorem run_backed {actions : List HostAction} (hrun : h.run actions = .ok (given, after))
    (hkeyed : h.engine.ChainKeyed) (hbacked : h.Backed) : after.Backed := by
  induction actions generalizing h given with
  | nil =>
      cases hrun
      exact hbacked
  | cons action rest ih =>
      obtain ⟨first, mid, more, hact, hrest, rfl, -⟩ := run_cons_eq_ok hrun
      exact ih hrest (act_registry hact hkeyed).1 (act_backed hact hkeyed hbacked)

end Host

end FuturesChains
