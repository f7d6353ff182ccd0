import FuturesChains.Proofs.Selection.Host

/-!
# The identity of chain securities

Along every run of a host the registered symbols are futures chains, each with a security of its own
symbol, and as many as there were successful constructions (`Engine.ChainKeyed`). Since a registered
symbol is never given another security (`Registry.KeptBy`), the chain decides the security:
`one_security_per_chain` says that all universes of one chain that a run ever produced hold the same
one, and that the registry leads to it from its registration on.
-/

namespace FuturesChains

/-- Whatever the first registry leads to, the second one leads to as well. -/
def Registry.KeptBy (r later : Registry) : Prop :=
  ∀ chain id, r.find? chain = some id → later.find? chain = some id

/-- The registered symbols are futures chains, each once and with a security of that symbol, and
every one of them was added by a construction of its own and never removed. -/
structure Engine.ChainKeyed (e : Engine) : Prop where
  nodup : (e.registry.index.map (·.1)).Nodup
  chains : ∀ entry ∈ e.registry.index, entry.1.kind = .future ∧ entry.1.expiry = none
  stored : ∀ entry ∈ e.registry.index,
    (e.registry.security? entry.2).map (·.symbol) = some entry.1
  journal : e.registry.journal = e.registry.index.map fun entry => .added entry.1
  built : e.tally.built = e.registry.index.length

namespace Registry

theorem KeptBy.trans {r mid later : Registry} (hfirst : r.KeptBy mid) (hlater : mid.KeptBy later) :
    r.KeptBy later :=
  fun chain id h => hlater chain id (hfirst chain id h)

/-- The newest security is found under its symbol if that was not registered. -/
theorem find?_extend (r : Registry) (security : Security) (chain : Symbol) :
    (r.extend security).find? chain =
      (r.find? chain).or (if security.symbol = chain then some ⟨r.cells.length⟩ else none) := by
  cases hold : r.index.find? (·.1 = chain) with
  | some entry => simp [find?, extend, List.find?_append, hold]
  | none =>
      by_cases h : security.symbol = chain <;>
        simp [find?, extend, List.find?_append, hold, h]

theorem keptBy_extend (r : Registry) (security : Security) : r.KeptBy (r.extend security) := by
  intro chain id h
  rw [find?_extend, h]
  rfl

/-- A registered symbol is the key of an entry. -/
theorem find?_eq_none_iff {r : Registry} {chain : Symbol} :
    r.find? chain = none ↔ chain ∉ r.index.map (·.1) := by
  simp only [find?, Option.map_eq_none_iff, List.find?_eq_none, decide_eq_true_eq, List.mem_map,
    not_exists, not_and]

/-- What a symbol leads to stands in an entry. -/
theorem mem_of_find? {r : Registry} {chain : Symbol} {id : SecurityId}
    (h : r.find? chain = some id) : (chain, id) ∈ r.index := by
  obtain ⟨entry, hentry, rfl⟩ := Option.map_eq_some_iff.1 h
  have hchain : entry.1 = chain := by simpa using List.find?_some hentry
  rw [← hchain]
  exact List.mem_of_find?_eq_some hentry

theorem security?_extend_of_isSome {r : Registry} {security : Security} {id : SecurityId}
    (h : (r.security? id).isSome = true) :
    (r.extend security).security? id = r.security? id := by
  have hlt : id.cell < r.cells.length := by simpa [security?] using h
  exact List.getElem?_append_left hlt

end Registry

/-- A change of one cell is not seen in what it leaves of every security. -/
theorem Registry.map_security?_modify {α : Type} (r : Registry) (id other : SecurityId)
    {change : Security → Security} {view : Security → α} (hview : ∀ s, view (change s) = view s) :
    ((r.modify id change).security? other).map view = (r.security? other).map view := by
  by_cases h : other = id
  · rw [h, Registry.security?_modify_self, Option.map_map]
    exact congrArg (Option.map · _) (funext hview)
  · rw [Registry.security?_modify_of_ne h]

namespace Engine.ChainKeyed

/-- Every entry leads to a security. -/
theorem isSome_security? {e : Engine} (h : e.ChainKeyed) {entry : Symbol × SecurityId}
    (hentry : entry ∈ e.registry.index) : (e.registry.security? entry.2).isSome = true := by
  obtain ⟨security, hsecurity, -⟩ := Option.map_eq_some_iff.1 (h.stored entry hentry)
  rw [hsecurity]
  rfl

theorem start (facilities : Facilities) (clock : Instant) :
    (Engine.start facilities clock).ChainKeyed where
  nodup := List.nodup_nil
  chains := by simp [Engine.start, Registry.empty]
  stored := by simp [Engine.start, Registry.empty]
  journal := rfl
  built := rfl

/-- A new security for a chain without one keeps the invariant. -/
theorem extend {e : Engine} (h : e.ChainKeyed) {security : Security} {table : SubscriptionTable}
    (hkind : security.symbol.kind = .future) (hexpiry : security.symbol.expiry = none)
    (hfind : e.registry.find? security.symbol = none) : (e.extend security table).ChainKeyed where
  nodup := by
    have hfresh := Registry.find?_eq_none_iff.1 hfind
    simp only [Engine.extend, Registry.extend, List.map_append, List.map_cons, List.map_nil]
    exact List.nodup_append.2 ⟨h.nodup, by simp, by
      intro a ha b hb heq
      rw [List.mem_singleton] at hb
      exact hfresh (by rwa [heq, hb] at ha)⟩
  chains := by
    intro entry hentry
    rcases List.mem_append.1 hentry with hold | hnew
    · exact h.chains entry hold
    · rw [List.mem_singleton] at hnew
      rw [hnew]
      exact ⟨hkind, hexpiry⟩
  stored := by
    intro entry hentry
    rcases List.mem_append.1 hentry with hold | hnew
    · rw [show (e.extend security table).registry = e.registry.extend security from rfl,
        Registry.security?_extend_of_isSome (h.isSome_security? hold)]
      exact h.stored entry hold
    · rw [List.mem_singleton] at hnew
      rw [hnew]
      simp [Engine.extend, Registry.extend, Registry.security?]
  journal := by
    simp only [Engine.extend, Registry.extend, h.journal, List.map_append, List.map_cons,
      List.map_nil]
  built := by
    simp only [Engine.extend, Registry.extend, h.built, List.length_append, List.length_singleton]

/-- A resolution keeps the invariant. -/
theorem resolves {m : SelectionModel} {ctx : SelectionContext} {e after : Engine} {s : Symbol}
    {outcome : Except SelectionError ChainUniverse} (h : e.ChainKeyed)
    (hresolves : Resolves m ctx e s outcome after) : after.ChainKeyed := by
  cases hresolves with
  | invalidKind | unknown => exact h
  | refused => exact { h with }
  | reused id hkind hfind =>
      exact { h with
        stored := fun entry hentry =>
          (Registry.map_security?_modify _ _ _ (Security.symbol_attach m.filter)).trans
            (h.stored entry hentry) }
  | created hours properties security table hkind hfind hmetadata hconstruct =>
      have hsymbol := symbol_of_construct hconstruct
      refine h.extend ?_ ?_ ?_
      · rw [Security.symbol_attach, hsymbol]
        exact hkind
      · rw [Security.symbol_attach, hsymbol]
        rfl
      · rw [Security.symbol_attach, hsymbol]
        exact hfind

/-- A registered symbol is a futures chain and leads to a security of that symbol. -/
theorem of_find? {e : Engine} (h : e.ChainKeyed) {chain : Symbol} {id : SecurityId}
    (hfind : e.registry.find? chain = some id) :
    chain.kind = .future ∧ chain.expiry = none ∧
      ∃ security, e.registry.security? id = some security ∧ security.symbol = chain := by
  have hmem := Registry.mem_of_find? hfind
  obtain ⟨hkind, hexpiry⟩ := h.chains _ hmem
  exact ⟨hkind, hexpiry, Option.map_eq_some_iff.1 (h.stored _ hmem)⟩

end Engine.ChainKeyed

/-- A resolution gives no registered symbol another security. -/
theorem Resolves.keptBy {m : SelectionModel} {ctx : SelectionContext} {e after : Engine}
    {s : Symbol} {outcome : Except SelectionError ChainUniverse}
    (h : Resolves m ctx e s outcome after) : e.registry.KeptBy after.registry := by
  cases h with
  | invalidKind | unknown | refused => exact fun chain id h => h
  | reused id hkind hfind => exact fun chain id h => h
  | created hours properties security table => exact Registry.keptBy_extend _ _

/-- The registry leads from the chain of a universe to the universe's security. -/
theorem Resolves.find?_given {m : SelectionModel} {ctx : SelectionContext} {e after : Engine}
    {s : Symbol} {u : ChainUniverse} (h : Resolves m ctx e s (.ok u) after) :
    after.registry.find? u.chain = some u.security := by
  cases h with
  | reused id hkind hfind => exact hfind
  | created hours properties security table hkind hfind hmetadata hconstruct =>
      have hsymbol := symbol_of_construct hconstruct
      simp [Engine.extend, Registry.find?_extend, SelectionModel.chainUniverse, hfind, hsymbol]

namespace Resolutions

variable {e after : Engine} {log : List Attempt}

theorem chainKeyed (h : Resolutions e log after) (hkeyed : e.ChainKeyed) :
    after.ChainKeyed := by
  induction h with
  | refl e => exact hkeyed
  | cons hfirst _ ih => exact ih (hkeyed.resolves hfirst)

theorem keptBy (h : Resolutions e log after) : e.registry.KeptBy after.registry := by
  induction h with
  | refl e => exact fun chain id h => h
  | cons hfirst _ ih => exact hfirst.keptBy.trans ih

theorem find?_given (h : Resolutions e log after) :
    ∀ u ∈ log.flatMap (·.universes), after.registry.find? u.chain = some u.security := by
  induction h with
  | refl e => simp
  | @cons a e mid after log hfirst hrest ih =>
      obtain ⟨m, ctx, s, outcome⟩ := a
      intro u hu
      rw [List.flatMap_cons] at hu
      rcases List.mem_append.1 hu with hu | hu
      · cases outcome with
        | error error => simp [Attempt.universes, Except.toOption] at hu
        | ok found =>
            obtain rfl : u = found := by simpa [Attempt.universes, Except.toOption] using hu
            exact hrest.keptBy _ _ hfirst.find?_given
      · exact ih u hu

end Resolutions

namespace Host

variable {h after : Host} {given : List ChainUniverse}

/-- What an action does to the registry: it stays keyed by chains, keeps what it leads to, and leads
to the securities of the universes that the action produced. -/
theorem act_registry {action : HostAction} (hact : h.act action = .ok (given, after))
    (hkeyed : h.engine.ChainKeyed) :
    after.engine.ChainKeyed ∧ h.engine.registry.KeptBy after.engine.registry ∧
      ∀ u ∈ given, after.engine.registry.find? u.chain = some u.security := by
  obtain ⟨rfl, mid, hresolved, hengine⟩ := act_engine hact
  rw [hengine]
  exact ⟨{ hresolved.chainKeyed hkeyed with }, hresolved.keptBy, hresolved.find?_given⟩

/-- What a run does to the registry, by induction on its actions. -/
theorem run_registry {actions : List HostAction} (hrun : h.run actions = .ok (given, after))
    (hkeyed : h.engine.ChainKeyed) :
    after.engine.ChainKeyed ∧ h.engine.registry.KeptBy after.engine.registry ∧
      ∀ u ∈ given, after.engine.registry.find? u.chain = some u.security := by
  induction actions generalizing h given with
  | nil =>
      cases hrun
      exact ⟨hkeyed, fun chain id h => h, by simp⟩
  | cons action rest ih =>
      obtain ⟨first, mid, more, hact, hrest, rfl, -⟩ := run_cons_eq_ok hrun
      obtain ⟨hmid, hkept, hfirst⟩ := act_registry hact hkeyed
      obtain ⟨hlast, hkept', hmore⟩ := ih hrest hmid
      refine ⟨hlast, hkept.trans hkept', ?_⟩
      intro u hu
      rcases List.mem_append.1 hu with hu | hu
      · exact hkept' _ _ (hfirst u hu)
      · exact hmore u hu

end Host

/-- The event is a registration. -/
def RegistryEvent.isAddition : RegistryEvent → Bool
  | .added _ => true
  | .removed _ => false

/-- Every key leads to the security of its entry. -/
theorem Engine.ChainKeyed.find?_of_mem {e : Engine} (h : e.ChainKeyed)
    {entry : Symbol × SecurityId} (hentry : entry ∈ e.registry.index) :
    e.registry.find? entry.1 = some entry.2 := by
  rw [Registry.find?, find?_key_of_mem h.nodup hentry]
  rfl

/-- A run of any actions on a fresh engine gives every chain one security. All universes of a chain
hold that security, and from its registration on the registry leads to it, however the run goes on.
The registered symbols are the futures chains of the stored securities. There are as many of them as
constructions that succeeded and as registrations in the journal. -/
theorem one_security_per_chain {facilities : Facilities} {clock : Instant} {mid last : Host}
    {first later : List HostAction} {given more : List ChainUniverse}
    (hfirst : (Host.start facilities clock).run first = .ok (given, mid))
    (hlater : mid.run later = .ok (more, last)) :
    (∀ u ∈ given ++ more, last.engine.registry.find? u.chain = some u.security) ∧
      (∀ u ∈ given ++ more, ∀ v ∈ given ++ more, u.chain = v.chain → u.security = v.security) ∧
      (∀ chain id, mid.engine.registry.find? chain = some id →
        last.engine.registry.find? chain = some id) ∧
      (∀ entry ∈ last.engine.registry.index,
        entry.1.kind = .future ∧ entry.1.expiry = none ∧
          last.engine.registry.find? entry.1 = some entry.2 ∧
          (last.engine.registry.security? entry.2).map (·.symbol) = some entry.1) ∧
      last.engine.tally.built = last.engine.registry.size ∧
      last.engine.registry.journal.countP (·.isAddition) = last.engine.registry.size := by
  obtain ⟨hmid, -, hgiven⟩ := Host.run_registry hfirst (.start facilities clock)
  obtain ⟨hlast, hkept, hmore⟩ := Host.run_registry hlater hmid
  have hall : ∀ u ∈ given ++ more, last.engine.registry.find? u.chain = some u.security := by
    intro u hu
    rcases List.mem_append.1 hu with hu | hu
    · exact hkept _ _ (hgiven u hu)
    · exact hmore u hu
  refine ⟨hall, ?_, hkept, ?_, hlast.built, ?_⟩
  · intro u hu v hv heq
    have hu := hall u hu
    rw [heq, hall v hv] at hu
    exact (Option.some.inj hu).symm
  · intro entry hentry
    obtain ⟨hkind, hexpiry⟩ := hlast.chains entry hentry
    exact ⟨hkind, hexpiry, hlast.find?_of_mem hentry, hlast.stored entry hentry⟩
  · rw [hlast.journal, List.countP_map]
    simp [Registry.size, RegistryEvent.isAddition, Function.comp_def]

/-- A refresh under way and a step of a manager name crude oil in turn, by a contract and by its
chain, and all their universes share one security. Natural gas is refused. -/
theorem one_security_per_chain_crude_oil :
    let oil : Symbol := .undated "CL" .future .nymex
    let gas : Symbol := .undated "NG" .future .nymex
    let plan (symbols : List Symbol) : ModelPlan :=
      ⟨(⟨60⟩ : Span), .standing symbols, none, none, .frontMonth 90⟩
    ∃ given mid more last,
      (Host.start (.traded (.refusing ["NG"] ["no data"])) default).run
          [.hold (plan [.future "CL" .nymex default, oil, gas]), .refresh 0 ⟨default, .standard⟩,
            .pull 0] = .ok (given, mid) ∧
        mid.run [.manage (plan [oil, .equity "CL" .nymex]), .step, .pull 0, .pull 0] =
          .ok (more, last) ∧
        given.length = 1 ∧ more.length = 2 ∧
        ∀ u ∈ given ++ more, ∀ v ∈ given ++ more, u.chain = v.chain → u.security = v.security := by
  intro oil gas plan
  have hrun : ((Host.start (.traded (.refusing ["NG"] ["no data"])) default).run
      [.hold (plan [.future "CL" .nymex default, oil, gas]), .refresh 0 ⟨default, .standard⟩,
        .pull 0] >>= fun start =>
      (start.2.run [.manage (plan [oil, .equity "CL" .nymex]), .step, .pull 0, .pull 0]).map
        fun later => (start.1.length, later.1.length)) = .ok (1, 2) := by
    decide +kernel
  rw [Halt.bind_eq_ok] at hrun
  obtain ⟨⟨given, mid⟩, hfirst, hrun⟩ := hrun
  rw [Halt.map_eq_ok] at hrun
  obtain ⟨⟨more, last⟩, hlater, hlengths⟩ := hrun
  obtain ⟨hgiven, hmore⟩ := Prod.mk.inj hlengths
  exact ⟨given, mid, more, last, hfirst, hlater, hgiven, hmore,
    (one_security_per_chain hfirst hlater).2.1⟩

end FuturesChains
