import Mathlib.Algebra.GroupWithZero.Nat
import FuturesChains.Proofs.Selection.ActiveSelection
import FuturesChains.Proofs.Selection.ChainIdentity
import FuturesChains.Proofs.Selection.EagerRefresh
import FuturesChains.Proofs.Selection.RefreshSchedule

/-!
# Owners of active chains

The owner of a chain is the last model to have resolved it. What belongs to the owner is kept in two
places: the settings and the initializer in the universe that is in force, and the filter in the
shared security, which is closed for direct trading. Along every run of a manager both are the
owner's: `Engine.AttachedBy` says so of the securities and `ActiveUniverses.HoldsLast` of the
universes. `last_resolver_owns_chain` joins them, and says which chains are active and what a step
counts.
-/

namespace FuturesChains

/-- The owner of a chain by a log: the last attempt that gave the chain. -/
def owner? (log : List Attempt) (chain : Symbol) : Option Attempt :=
  log.reverse.find? (·.gives chain)

/-- The next attempt owns the chains that it gives, and leaves the others to their owners. -/
theorem owner?_concat (log : List Attempt) (a : Attempt) (chain : Symbol) :
    owner? (log ++ [a]) chain = if a.gives chain then some a else owner? log chain := by
  simp only [owner?, List.reverse_append, List.reverse_singleton, List.singleton_append,
    List.find?_cons]
  cases a.gives chain <;> rfl

theorem mem_of_owner? {log : List Attempt} {chain : Symbol} {a : Attempt}
    (h : owner? log chain = some a) : a ∈ log :=
  List.mem_reverse.1 (List.mem_of_find?_eq_some h)

/-- Every universe of a log is the one that its model makes of a security of the symbol's chain, and
the security of an owned chain has its owner's filter and is closed for direct trading. -/
structure Engine.AttachedBy (e : Engine) (log : List Attempt) : Prop extends e.ChainKeyed where
  made : ∀ a ∈ log, ∀ u, a.outcome = .ok u →
    u = a.model.chainUniverse a.context a.symbol.toCanonical u.security
  attached : ∀ chain a, owner? log chain = some a → ∃ u security, a.outcome = .ok u ∧
    e.registry.find? chain = some u.security ∧
    e.registry.security? u.security = some security ∧
    security.filter = a.model.filter ∧ security.tradable = false

namespace Resolves

variable {m : SelectionModel} {ctx : SelectionContext} {e after : Engine} {s : Symbol}
  {outcome : Except SelectionError ChainUniverse}

/-- A resolution leaves the chain's security with the model's filter and closed for direct
trading. -/
theorem attaches {u : ChainUniverse} (h : Resolves m ctx e s (.ok u) after)
    (hkeyed : e.ChainKeyed) :
    ∃ security, after.registry.security? u.security = some security ∧
      security.filter = m.filter ∧ security.tradable = false := by
  cases h with
  | reused id hkind hfind =>
      obtain ⟨-, -, security, hsecurity, -⟩ := hkeyed.of_find? hfind
      refine ⟨security.attach m.filter, ?_, rfl, rfl⟩
      refine (Registry.security?_modify_self _ _ _).trans ?_
      rw [hsecurity]
      rfl
  | created hours properties security table =>
      exact ⟨security.attach m.filter, Registry.security?_extend_length _ _, rfl, rfl⟩

/-- A resolution leaves the securities of other chains. -/
theorem security?_of_ne (h : Resolves m ctx e s outcome after) (hkeyed : e.ChainKeyed)
    {chain : Symbol} {id : SecurityId} (hfind : e.registry.find? chain = some id)
    (hne : s.toCanonical ≠ chain) : after.registry.security? id = e.registry.security? id := by
  obtain ⟨-, -, security, hsecurity, hsymbol⟩ := hkeyed.of_find? hfind
  cases h with
  | invalidKind | unknown | refused => rfl
  | reused other hkind hother =>
      -- two chains have two securities, since a security has the symbol of its chain
      refine Registry.security?_modify_of_ne fun heq => hne ?_
      obtain ⟨-, -, security', hsecurity', hsymbol'⟩ := hkeyed.of_find? hother
      rw [← heq, hsecurity] at hsecurity'
      rw [← hsymbol', ← Option.some.inj hsecurity', hsymbol]
  | created hours properties security' table =>
      exact Registry.security?_extend_of_isSome (by rw [hsecurity]; rfl)

end Resolves

namespace Engine.AttachedBy

/-- Nothing is asked for before the first attempt. -/
theorem nil {e : Engine} (h : e.ChainKeyed) : e.AttachedBy [] where
  toChainKeyed := h
  made := by simp
  attached := by simp [owner?]

/-- A resolution makes its model the owner. -/
theorem resolves {e after : Engine} {log : List Attempt} {a : Attempt} (h : e.AttachedBy log)
    (hresolves : Resolves a.model a.context e a.symbol a.outcome after) :
    after.AttachedBy (log ++ [a]) where
  toChainKeyed := h.toChainKeyed.resolves hresolves
  made := by
    intro b hb u hu
    rcases List.mem_append.1 hb with hold | hnew
    · exact h.made b hold u hu
    · obtain rfl := List.mem_singleton.1 hnew
      rw [hu] at hresolves
      exact hresolves.universe_eq
  attached := by
    intro chain b hb
    rw [owner?_concat] at hb
    split at hb
    · rename_i hgives
      obtain rfl := Option.some.inj hb
      obtain ⟨⟨u, hu⟩, rfl⟩ := Attempt.gives_iff.1 hgives
      rw [hu] at hresolves
      obtain ⟨security, hsecurity, hfilter, htradable⟩ := hresolves.attaches h.toChainKeyed
      rw [← hresolves.chain_eq]
      exact ⟨u, security, hu, hresolves.find?_given, hsecurity, hfilter, htradable⟩
    · rename_i hgives
      obtain ⟨u, security, hu, hfind, hsecurity, hfilter, htradable⟩ := h.attached chain b hb
      refine ⟨u, security, hu, hresolves.keptBy _ _ hfind, ?_, hfilter, htradable⟩
      cases houtcome : a.outcome with
      | error error =>
          rw [houtcome] at hresolves
          cases hresolves with
          | invalidKind | unknown | refused => exact hsecurity
      | ok found =>
          rw [hresolves.security?_of_ne h.toChainKeyed hfind fun hchain =>
            hgives (Attempt.gives_iff.2 ⟨⟨found, houtcome⟩, hchain⟩)]
          exact hsecurity

/-- Resolutions make their models the owners. -/
theorem resolutions {e after : Engine} {log later : List Attempt} (h : e.AttachedBy log)
    (hresolved : Resolutions e later after) : after.AttachedBy (log ++ later) :=
  hresolved.keep (P := fun log e => e.AttachedBy log)
    (fun _ _ _ _ hattached hresolves => hattached.resolves hresolves) h

/-- The last universe of a chain among those of a log is the one that the owner gave. -/
theorem find?_universes {e : Engine} {log : List Attempt} (h : e.AttachedBy log) (chain : Symbol) :
    (log.flatMap (·.universes)).reverse.find? (·.chain = chain) =
      (owner? log chain).bind (·.outcome.toOption) := by
  have hmade := h.made
  clear h
  induction log using List.reverseRecOn with
  | nil => rfl
  | append_singleton log a ih =>
      have hlast := ih fun b hb => hmade b (List.mem_append_left [a] hb)
      have hgives : ∀ u, a.outcome = .ok u → (a.gives chain = true ↔ u.chain = chain) := by
        intro u hu
        rw [hmade a (by simp) u hu, Attempt.gives_iff, hu]
        exact ⟨fun hg => hg.2, fun hchain => ⟨⟨u, rfl⟩, hchain⟩⟩
      rw [owner?_concat, List.flatMap_append, List.reverse_append, List.find?_append, hlast]
      cases houtcome : a.outcome with
      | error error => simp [Attempt.gives, Attempt.universes, houtcome, Except.toOption]
      | ok u =>
          by_cases hchain : u.chain = chain
          · simp [Attempt.universes, houtcome, Except.toOption, hchain, (hgives u houtcome).2]
          · have hnot : a.gives chain = false := by simpa [hchain] using hgives u houtcome
            simp [Attempt.universes, houtcome, Except.toOption, hchain, hnot]

end Engine.AttachedBy

/-- The universe in force for every chain is the last one of that chain among some universes. -/
def ActiveUniverses.HoldsLast (a : ActiveUniverses) (given : List ChainUniverse) : Prop :=
  ∀ chain, (a.find? chain).map (·.current) = given.reverse.find? (·.chain = chain)

namespace ActiveUniverses.HoldsLast

variable {a : ActiveUniverses} {given : List ChainUniverse}

theorem add (h : a.HoldsLast given) (u : ChainUniverse) : (a.add u).2.HoldsLast (given ++ [u]) := by
  intro chain
  rw [find?_add, List.reverse_append, List.reverse_singleton, List.singleton_append,
    List.find?_cons]
  by_cases hchain : u.chain = chain
  · simp [hchain]
  · simpa [hchain] using h chain

/-- Universes are put in force, the later ones over the earlier ones. -/
theorem addAll (h : a.HoldsLast given) (more : List ChainUniverse) :
    (a.addAll more).HoldsLast (given ++ more) := by
  induction more generalizing a given with
  | nil => rwa [List.append_nil]
  | cons u rest ih =>
      have hrest := ih (h.add u)
      rwa [List.append_assoc, List.singleton_append] at hrest

/-- Running a selection leaves the universes in force. -/
theorem run (h : a.HoldsLast given) {r : Registry} {chain : Symbol} {now : Instant}
    {available : List Symbol} {diff : Option SelectionDiff} {after : ActiveUniverses}
    (hrun : a.run r chain now available = .ok (diff, after)) : after.HoldsLast given := by
  cases run_iff.1 hrun with
  | inactive hfind => exact h
  | active entry next hfind hnext =>
      intro other
      rw [find?_replace hfind, ← h other]
      split
      · rename_i heq
        rw [← heq, hfind]
        rfl
      · rfl

/-- The universe in force for a chain is the one that its owner gave, and the chain's security is as
the owner asked for. -/
theorem exists_owner {e : Engine} {log : List Attempt} (h : a.HoldsLast (log.flatMap (·.universes)))
    (hattached : e.AttachedBy log) {chain : Symbol} {entry : ActiveChain}
    (hentry : a.find? chain = some entry) :
    ∃ owner security, owner? log chain = some owner ∧ owner.outcome = .ok entry.current ∧
      e.registry.find? chain = some entry.current.security ∧
      e.registry.security? entry.current.security = some security ∧
      security.filter = owner.model.filter ∧ security.tradable = false := by
  have hcurrent := h chain
  rw [hentry, hattached.find?_universes] at hcurrent
  obtain ⟨owner, howner, hgiven⟩ := Option.bind_eq_some_iff.1 hcurrent.symm
  obtain ⟨u, security, houtcome, hfound⟩ := hattached.attached chain owner howner
  rw [houtcome] at hgiven
  obtain rfl : u = entry.current := Option.some.inj hgiven
  exact ⟨owner, security, howner, houtcome, hfound⟩

end ActiveUniverses.HoldsLast

/-- The action resolves symbols past the manager. -/
def HostAction.isDirect : HostAction → Bool
  | .resolve .. | .pull .. => true
  | _ => false

namespace Host

variable {h after : Host} {given : List ChainUniverse}

/-- An action past the manager leaves the universes in force alone. Any other puts what it produced
in force, or it produces nothing and runs the selection of a chain. -/
theorem act_universes {action : HostAction} (hact : h.act action = .ok (given, after)) :
    (action.isDirect = true ∧ after.manager.universes = h.manager.universes) ∨
      after.manager.universes = h.manager.universes.addAll given ∨
      given = [] ∧ ∃ chain contracts diff,
        h.manager.universes.run h.engine.registry chain h.engine.clock contracts =
          .ok (diff, after.manager.universes) := by
  cases action with
  | hold | setFilter | manage | setDefaultSettings | setDefaultInitializer | setClock | advance =>
      cases hact
      exact .inr (.inl rfl)
  | handOver number | refresh number ctx =>
      simp only [act] at hact
      split at hact
      · cases hact
        exact .inr (.inl rfl)
      · cases hact
        exact .inr (.inl rfl)
  | resolve number ctx symbol | pull number =>
      simp only [act] at hact
      split at hact
      · cases hact
        exact .inl ⟨rfl, rfl⟩
      · rw [Halt.bind_eq_ok] at hact
        obtain ⟨⟨result, engine⟩, -, hact⟩ := hact
        cases result <;> cases hact <;> exact .inl ⟨rfl, rfl⟩
  | step =>
      obtain ⟨reports, manager, engine, hstep, rfl, rfl⟩ := act_step_iff.1 hact
      exact .inr (.inl (SelectionManager.universes_step hstep))
  | feed chain contracts =>
      simp only [act, SelectionManager.onChainContracts, Halt.bind_eq_ok] at hact
      obtain ⟨_, ⟨⟨diff, universes⟩, hrun, hfed⟩, hact⟩ := hact
      cases hfed
      cases hact
      exact .inr (.inr ⟨rfl, chain, contracts, diff, hrun⟩)

end Host

/-- The symbols that a refresh resolved. -/
def RefreshReport.resolved (r : RefreshReport) : Finset Symbol :=
  ((r.pulls.filter (·.1.isUniverse)).map (·.1.symbol)).toFinset

/-- A step counts the universes of its refreshes. -/
theorem SelectionManager.emitted_eq_sum (reports : List RefreshReport) :
    emitted reports = (reports.map (·.emitted)).sum := by
  rw [emitted, List.sum_eq_foldl, List.foldl_map]

end FuturesChains
