import FuturesChains.Proofs.Engine.RegistryJournal
import FuturesChains.Proofs.Selection.ChainSubscription
import FuturesChains.Proofs.Selection.RefreshAgain

/-!
# What a refresh reads and writes

A resolution reads and writes what the engine holds for the chain of its symbol, and nothing of the
other chains. Two engines agree on some chains if they have the same facilities and defaults and
hold securities of the same content for these chains, under whatever identities
(`Engine.AgreesOn`). A resolution keeps an engine as it is on the other chains
(`Resolves.agreesOn`), and does the same in engines that agree on its chain (`Resolves.transfer`).
By induction on the symbols the same is true of a drained refresh and the chains that its model's
selector names (`SelectionModel.agreesOn_drain`, `SelectionModel.drain_transfer`). Engines that
agree everywhere differ in the order of registrations and in identities only. The construction
service decides by the request alone (`Engine.Steady`), or else a table that differs in its order
could make a difference.
-/

namespace FuturesChains

/-- Every chain. -/
abbrev Everywhere : Symbol → Prop := fun _ => True

/-- A universe but for the identity of its security. -/
structure UniverseTerms where
  chain : Symbol
  settings : UniverseSettings
  initializer : Initializer

/-- The universe but for the identity of its security. -/
def ChainUniverse.terms (u : ChainUniverse) : UniverseTerms := ⟨u.chain, u.settings, u.initializer⟩

/-- An outcome but for the identity of the security. -/
def outcomeTerms : Except SelectionError ChainUniverse → Except SelectionError UniverseTerms
  | .ok u => .ok u.terms
  | .error error => .error error

theorem outcomeTerms_eq_error {outcome : Except SelectionError ChainUniverse}
    {error : SelectionError} : outcomeTerms outcome = .error error ↔ outcome = .error error := by
  cases outcome <;> simp [outcomeTerms]

theorem outcomeTerms_eq_ok {outcome : Except SelectionError ChainUniverse} {terms : UniverseTerms} :
    outcomeTerms outcome = .ok terms ↔ ∃ u, outcome = .ok u ∧ u.terms = terms := by
  cases outcome <;> simp [outcomeTerms]

namespace ConstructionService

variable {service : ConstructionService} {q : SecurityRequest} {table left : SubscriptionTable}

/-- A request that is not refused where one table is given is not refused where another one is. -/
theorem AnswersRequest.refusal_eq_none (h : service.AnswersRequest)
    (hrefusal : service.refusal q table = none) (other : SubscriptionTable) :
    service.refusal q other = none := by
  have hsame := h q other table
  rw [hrefusal] at hsame
  exact Option.map_eq_none_iff.1 hsame

/-- A construction that fails where one table is given fails in the same way where another one is,
and leaves it. -/
theorem AnswersRequest.construct_eq_error (h : service.AnswersRequest)
    (hleaves : service.LeavesTable) {error : ConstructionError}
    (hconstruct : service.construct q table = (.error error, left)) (other : SubscriptionTable) :
    service.construct q other = (.error error, other) := by
  refine construct_eq_error_iff.2 ?_
  rcases construct_eq_error_iff.1 hconstruct with
    ⟨causes, hrefusal, herror⟩ | ⟨hrefusal, hlot, herror, -⟩
  · have hsame := h q other table
    rw [hrefusal] at hsame
    obtain ⟨⟨causes', left'⟩, hother, rfl⟩ := Option.map_eq_some_iff.1 hsame
    obtain rfl := hleaves q other causes' left' hother
    exact .inl ⟨causes', hother, herror⟩
  · exact .inr ⟨h.refusal_eq_none hrefusal other, hlot, herror, rfl⟩

end ConstructionService

@[simp] theorem Registry.find?_modify (r : Registry) (id : SecurityId) (f : Security → Security)
    (symbol : Symbol) : (r.modify id f).find? symbol = r.find? symbol := rfl

namespace Engine

variable {e f g : Engine} {chain : Symbol} {id : SecurityId}

theorem ChainKeyed.indexed (h : e.ChainKeyed) : e.registry.Indexed where
  nodup := h.nodup
  held := fun _ hentry => h.isSome_security? hentry

/-- A symbol has no security if it leads nowhere. -/
theorem ChainKeyed.registered?_eq_none_iff (h : e.ChainKeyed) :
    e.registry.registered? chain = none ↔ e.registry.find? chain = none := by
  rw [← Option.not_isSome_iff_eq_none, ← Option.not_isSome_iff_eq_none,
    h.indexed.isSome_registered?]

/-- A change of a registered security is a change for its chain alone, since no other chain leads to
it. -/
theorem ChainKeyed.registered?_modify (h : e.ChainKeyed) (hfind : e.registry.find? chain = some id)
    (change : Security → Security) (other : Symbol) :
    (e.modify id change).registry.registered? other =
      if chain = other then (e.registry.registered? chain).map change
      else e.registry.registered? other := by
  simp only [modify, Registry.registered?, Registry.find?_modify]
  by_cases hother : chain = other
  · simp [← hother, hfind, Registry.security?_modify_self]
  · rw [if_neg hother]
    cases hfound : e.registry.find? other with
    | none => rfl
    | some id' =>
        refine Registry.security?_modify_of_ne fun heq => hother ?_
        obtain ⟨-, -, security, hsecurity, hsymbol⟩ := h.of_find? hfind
        obtain ⟨-, -, security', hsecurity', hsymbol'⟩ := h.of_find? hfound
        rw [heq, hsecurity] at hsecurity'
        rw [← hsymbol, ← hsymbol', Option.some.inj hsecurity']

/-- A new security is registered for its chain alone. -/
theorem ChainKeyed.registered?_extend (h : e.ChainKeyed) {security : Security}
    (hfind : e.registry.find? security.symbol = none) (table : SubscriptionTable)
    (other : Symbol) :
    (e.extend security table).registry.registered? other =
      if security.symbol = other then some security else e.registry.registered? other :=
  h.indexed.registered?_extend hfind other

/-- A chain without a security has no subscription, so its new one is added as it is. -/
theorem Subscribed.add_subscription (h : e.Subscribed) {q : SecurityRequest}
    (hfind : e.registry.find? q.symbol = none) :
    e.subscriptions.add q.subscription = (q.subscription, e.subscriptions ++ [q.subscription]) := by
  have hfresh := Registry.find?_eq_none_iff.1 hfind
  rw [← h.symbols] at hfresh
  exact SubscriptionTable.add_of_symbol_notMem hfresh

/-- The subscriptions are those of the registered securities, and which requests the construction
service refuses does not depend on them. -/
structure Steady (e : Engine) : Prop extends e.Subscribed where
  answers : e.facilities.service.AnswersRequest

/-- A resolution keeps an engine steady. -/
theorem Steady.resolves {after : Engine} (h : e.Steady) {m : SelectionModel}
    {ctx : SelectionContext} {s : Symbol} {outcome : Except SelectionError ChainUniverse}
    (hresolves : Resolves m ctx e s outcome after) : after.Steady where
  toSubscribed := h.toSubscribed.resolves hresolves
  answers := by
    rw [hresolves.facilities_eq]
    exact h.answers

/-- A service that builds the security of a chain in one engine builds the same in any other where
the chain has none. -/
theorem Steady.construct_eq_ok (h : f.Steady) (he : e.Steady)
    (hfacilities : f.facilities = e.facilities) {q : SecurityRequest} {security : Security}
    {table : SubscriptionTable} (hfind : e.registry.find? q.symbol = none)
    (hnone : f.registry.find? q.symbol = none)
    (hconstruct : e.facilities.service.construct q e.subscriptions = (.ok security, table)) :
    f.facilities.service.construct q f.subscriptions =
      (.ok security, f.subscriptions ++ [q.subscription]) := by
  obtain ⟨hrefusal, hlot, rfl, -⟩ := ConstructionService.construct_eq_ok hconstruct
  have hother := he.answers.refusal_eq_none hrefusal f.subscriptions
  simp only [hfacilities, ConstructionService.construct, hother, SecurityRequest.assemble, hlot,
    if_true, h.add_subscription hnone, he.add_subscription hfind]

theorem ChainKeyed.mem_keys_iff (h : e.ChainKeyed) {chain : Symbol} :
    chain ∈ e.registry.index.map (·.1) ↔ (e.registry.registered? chain).isSome = true := by
  rw [h.indexed.isSome_registered?, Option.isSome_iff_ne_none, ne_eq, Registry.find?_eq_none_iff,
    Decidable.not_not]

theorem ChainKeyed.registered?_of_mem (h : e.ChainKeyed) {entry : Symbol × SecurityId}
    (hentry : entry ∈ e.registry.index) :
    e.registry.registered? entry.1 = e.registry.security? entry.2 := by
  rw [Registry.registered?, h.find?_of_mem hentry]
  rfl

theorem Subscribed.subscriptions_eq (h : e.Subscribed) :
    e.subscriptions.map some = (e.registry.index.map (·.1)).map fun chain =>
      (e.registry.registered? chain).map (·.subscription) := by
  rw [h.held, List.map_map]
  refine List.map_congr_left fun entry hentry => ?_
  rw [Function.comp_apply, h.registered?_of_mem hentry]

theorem Subscribed.ofSymbol_eq (h : e.Subscribed) (chain : Symbol) :
    e.subscriptions.ofSymbol chain =
      ((e.registry.registered? chain).map (·.subscription)).toList := by
  cases hfind : e.registry.find? chain with
  | none =>
      rw [h.ofSymbol_of_find?_eq_none hfind, h.registered?_eq_none_iff.2 hfind]
      rfl
  | some id =>
      obtain ⟨-, -, security, hsecurity, -⟩ := h.of_find? hfind
      rw [h.ofSymbol_of_find? hfind hsecurity, Registry.registered?, hfind, Option.bind_some,
        hsecurity]
      rfl

/-- Two engines agree on some chains: they have the same facilities and defaults, and securities of
the same content for these chains. -/
structure AgreesOn (P : Symbol → Prop) (e f : Engine) : Prop where
  left : e.Steady
  right : f.Steady
  facilities : f.facilities = e.facilities
  defaults : f.defaults = e.defaults
  registered : ∀ chain, P chain → f.registry.registered? chain = e.registry.registered? chain

namespace AgreesOn

variable {P Q : Symbol → Prop}

theorem refl (h : e.Steady) : e.AgreesOn P e := ⟨h, h, rfl, rfl, fun _ _ => rfl⟩

theorem symm (h : e.AgreesOn P f) : f.AgreesOn P e :=
  ⟨h.right, h.left, h.facilities.symm, h.defaults.symm,
    fun chain hp => (h.registered chain hp).symm⟩

theorem trans (h : e.AgreesOn P f) (h' : f.AgreesOn P g) : e.AgreesOn P g :=
  ⟨h.left, h'.right, h'.facilities.trans h.facilities, h'.defaults.trans h.defaults,
    fun chain hp => (h'.registered chain hp).trans (h.registered chain hp)⟩

theorem imp (h : e.AgreesOn P f) (hQ : ∀ chain, Q chain → P chain) : e.AgreesOn Q f :=
  { h with registered := fun chain hq => h.registered chain (hQ chain hq) }

/-- A chain without a security in one of the engines has none in the other. -/
theorem find?_eq_none (h : e.AgreesOn P f) (hp : P chain) (hfind : e.registry.find? chain = none) :
    f.registry.find? chain = none := by
  rwa [← h.right.registered?_eq_none_iff, h.registered chain hp, h.left.registered?_eq_none_iff]

/-- A chain with a security in one of the engines has one in the other. -/
theorem find?_eq_some (h : e.AgreesOn P f) (hp : P chain)
    (hfind : e.registry.find? chain = some id) : ∃ id', f.registry.find? chain = some id' := by
  cases hfound : f.registry.find? chain with
  | some id' => exact ⟨id', rfl⟩
  | none =>
      rw [h.symm.find?_eq_none hp hfound] at hfind
      cases hfind

/-- The same symbols are registered in engines that agree everywhere. -/
theorem keys_perm (h : e.AgreesOn Everywhere f) :
    (f.registry.index.map (·.1)).Perm (e.registry.index.map (·.1)) := by
  refine (List.perm_ext_iff_of_nodup h.right.nodup h.left.nodup).2 fun chain => ?_
  rw [h.right.mem_keys_iff, h.left.mem_keys_iff, h.registered chain trivial]

theorem size_eq (h : e.AgreesOn Everywhere f) : f.registry.size = e.registry.size := by
  simpa [Registry.size] using h.keys_perm.length_eq

theorem journal_perm (h : e.AgreesOn Everywhere f) :
    f.registry.journal.Perm e.registry.journal := by
  have hperm := h.keys_perm.map RegistryEvent.added
  rw [List.map_map, List.map_map] at hperm
  rw [h.left.journal, h.right.journal]
  exact hperm

theorem subscriptions_perm (h : e.AgreesOn Everywhere f) :
    List.Perm f.subscriptions e.subscriptions := by
  have hperm := h.keys_perm.map fun chain =>
    (e.registry.registered? chain).map (·.subscription)
  have hsame := (funext fun chain => h.registered chain trivial :
    f.registry.registered? = e.registry.registered?)
  rw [← h.left.subscriptions_eq, ← hsame, ← h.right.subscriptions_eq] at hperm
  simpa [List.filterMap_map, Function.comp_def] using hperm.filterMap id

theorem tally_eq (h : e.AgreesOn Everywhere f) (hcalls : f.tally.calls = e.tally.calls) :
    f.tally = e.tally := by
  have hbuilt : f.tally.built = e.tally.built := by
    rw [h.right.built, h.left.built]
    exact h.size_eq
  calc f.tally = ⟨f.tally.calls, f.tally.built⟩ := rfl
    _ = e.tally := by rw [hcalls, hbuilt]

end AgreesOn

end Engine

namespace Resolves

variable {m : SelectionModel} {ctx : SelectionContext} {e f after : Engine} {s : Symbol}
  {outcome : Except SelectionError ChainUniverse} {P : Symbol → Prop}

/-- A resolution writes nothing but what the engine holds for the chain of its symbol. -/
theorem agreesOn (h : Resolves m ctx e s outcome after) (he : e.Steady) :
    e.AgreesOn (fun chain => s.kind = .future → s.toCanonical ≠ chain) after where
  left := he
  right := he.resolves h
  facilities := h.facilities_eq
  defaults := h.clock_defaults.2
  registered := by
    intro chain hchain
    cases h with
    | invalidKind | unknown | refused => rfl
    | reused id hkind hfind =>
        rw [he.registered?_modify hfind, if_neg (hchain hkind)]
    | created hours properties security table hkind hfind hmetadata hconstruct =>
        have hsymbol := symbol_of_construct hconstruct
        have hfresh : e.registry.find? (security.attach m.filter).symbol = none := by
          rwa [Security.symbol_attach, hsymbol]
        rw [he.registered?_extend hfresh, Security.symbol_attach, hsymbol, if_neg (hchain hkind)]

/-- A resolution reads nothing but what the engine holds for the chain of its symbol: in another
engine that agrees there it ends in the same way, and the engines agree as before. -/
theorem transfer (h : Resolves m ctx e s outcome after) (hagree : e.AgreesOn P f)
    (hchain : s.kind = .future → P s.toCanonical) :
    ∃ outcome' after', m.resolve ctx f s = .ok (outcome', after') ∧
      outcomeTerms outcome' = outcomeTerms outcome ∧ after.AgreesOn P after' ∧
      after'.tally.calls + e.tally.calls = after.tally.calls + f.tally.calls := by
  have hmirror : ∀ {outcome' after'}, Resolves m ctx f s outcome' after' →
      (∀ chain, P chain →
        after'.registry.registered? chain = after.registry.registered? chain) →
      after.AgreesOn P after' := by
    intro outcome' after' h' hregistered
    refine ⟨hagree.left.resolves h, hagree.right.resolves h', ?_, ?_, hregistered⟩
    · rw [h'.facilities_eq, h.facilities_eq, hagree.facilities]
    · rw [h'.clock_defaults.2, h.clock_defaults.2, hagree.defaults]
  simp only [resolve_iff]
  cases h with
  | invalidKind hkind =>
      have h' : Resolves m ctx f s _ _ := .invalidKind hkind
      exact ⟨_, _, h', rfl, hmirror h' hagree.registered, Nat.add_comm _ _⟩
  | reused id hkind hfind =>
      obtain ⟨id', hfind'⟩ := hagree.find?_eq_some (hchain hkind) hfind
      have h' : Resolves m ctx f s _ _ := .reused id' hkind hfind'
      refine ⟨_, _, h', rfl, hmirror h' fun chain hp => ?_, Nat.add_comm _ _⟩
      rw [hagree.right.registered?_modify hfind', hagree.left.registered?_modify hfind,
        hagree.registered _ (hchain hkind), hagree.registered chain hp]
  | unknown error hkind hfind hmetadata =>
      have hnone := hagree.find?_eq_none (hchain hkind) hfind
      rw [← hagree.facilities] at hmetadata
      have h' : Resolves m ctx f s _ _ := .unknown error hkind hnone hmetadata
      exact ⟨_, _, h', rfl, hmirror h' hagree.registered, Nat.add_comm _ _⟩
  | refused hours properties error table hkind hfind hmetadata hconstruct =>
      have hnone := hagree.find?_eq_none (hchain hkind) hfind
      have hrefused :=
        hagree.left.answers.construct_eq_error hagree.left.leaves hconstruct f.subscriptions
      rw [← hagree.facilities] at hmetadata hrefused
      have h' : Resolves m ctx f s _ _ :=
        .refused hours properties error f.subscriptions hkind hnone hmetadata hrefused
      refine ⟨_, _, h', rfl, hmirror h' hagree.registered, ?_⟩
      simp only [Engine.countRefusal]
      omega
  | created hours properties security table hkind hfind hmetadata hconstruct =>
      have hnone := hagree.find?_eq_none (hchain hkind) hfind
      have hbuilt :=
        hagree.right.construct_eq_ok hagree.left hagree.facilities hfind hnone hconstruct
      have hsymbol := symbol_of_construct hconstruct
      rw [← hsymbol, ← Security.symbol_attach m.filter] at hfind hnone
      rw [← hagree.facilities] at hmetadata
      simp only [← hagree.facilities] at hbuilt
      have h' : Resolves m ctx f s _ _ :=
        .created hours properties security _ hkind (by rwa [← hsymbol]) hmetadata hbuilt
      refine ⟨_, _, h', rfl, hmirror h' fun chain hp => ?_, ?_⟩
      · rw [hagree.right.registered?_extend hnone, hagree.left.registered?_extend hfind,
          hagree.registered chain hp]
      · simp only [Engine.extend]
        omega

end Resolves

/-- What a result of a refresh says but for the identity of the security. -/
def EagerStep.terms (s : EagerStep) : Symbol × Except SelectionError UniverseTerms :=
  (s.symbol, outcomeTerms s.outcome)

/-- What a pull says but for the engine's counts and the identity of the security. -/
def Pull.terms (p : Pull) : Symbol × Except SelectionError UniverseTerms :=
  (p.symbol, outcomeTerms p.outcome)

namespace SelectionModel

variable {m : SelectionModel} {ctx : SelectionContext} {e f after : Engine} {symbols : List Symbol}
  {pulls : List Pull} {P : Symbol → Prop}

/-- The chains that a model's selector names at a time. -/
def chainsAt (m : SelectionModel) (now : Instant) : List Symbol :=
  ((m.selector.select now).filter (·.kind = .future)).map (·.toCanonical)

theorem mem_chainsAt {now : Instant} {chain : Symbol} :
    chain ∈ m.chainsAt now ↔
      ∃ s ∈ m.selector.select now, s.kind = .future ∧ s.toCanonical = chain := by
  simp [chainsAt, and_assoc]

/-- Symbols give the same results in two engines that agree on their chains, and the engines agree
as before. -/
theorem resolveAll_transfer (hagree : e.AgreesOn P f)
    (hchains : ∀ s ∈ symbols, s.kind = .future → P s.toCanonical)
    (hstop : (m.resolveAll ctx e symbols).stop = none) :
    (m.resolveAll ctx f symbols).stop = none ∧
      (m.resolveAll ctx f symbols).steps.map (·.terms) =
        (m.resolveAll ctx e symbols).steps.map (·.terms) ∧
      (EagerRefresh.engineAfter e (m.resolveAll ctx e symbols).steps).AgreesOn P
        (EagerRefresh.engineAfter f (m.resolveAll ctx f symbols).steps) ∧
      (EagerRefresh.engineAfter f (m.resolveAll ctx f symbols).steps).tally.calls + e.tally.calls =
        (EagerRefresh.engineAfter e (m.resolveAll ctx e symbols).steps).tally.calls +
          f.tally.calls := by
  induction symbols generalizing e f with
  | nil => exact ⟨rfl, rfl, hagree, Nat.add_comm _ _⟩
  | cons s rest ih =>
      obtain ⟨hfirst, hrest⟩ := List.forall_mem_cons.1 hchains
      cases hresolve : m.resolve ctx e s with
      | error stop => simp [resolveAll, hresolve] at hstop
      | ok result =>
          obtain ⟨outcome, after⟩ := result
          obtain ⟨outcome', after', hresolve', hterms, hafter, hcalls⟩ :=
            (resolve_iff.1 hresolve).transfer hagree hfirst
          cases outcome with
          | error error =>
              obtain rfl := outcomeTerms_eq_error.1 hterms
              rw [resolveAll_of_error hresolve, resolveAll_of_error hresolve']
              exact ⟨rfl, rfl, hafter, hcalls⟩
          | ok u =>
              obtain ⟨u', rfl, -⟩ := outcomeTerms_eq_ok.1 hterms
              rw [resolveAll_of_ok hresolve] at hstop ⊢
              rw [resolveAll_of_ok hresolve']
              obtain ⟨hstop', hsame, hlast, hmore⟩ := ih hafter hrest hstop
              refine ⟨hstop', ?_, hlast, ?_⟩
              · rw [List.map_cons, List.map_cons, hsame]
                simp only [EagerStep.terms, hterms]
              · simp only [EagerRefresh.engineAfter, List.foldl_cons] at hmore ⊢
                omega

/-- Every result is the resolution of one of the symbols. -/
theorem of_mem_resolveAll {step : EagerStep} (h : step ∈ (m.resolveAll ctx e symbols).steps) :
    step.symbol ∈ symbols ∧
      ∃ before, Resolves m ctx before step.symbol step.outcome step.engine := by
  induction symbols generalizing e with
  | nil => cases h
  | cons s rest ih =>
      cases hresolve : m.resolve ctx e s with
      | error stop => simp [resolveAll, hresolve] at h
      | ok result =>
          obtain ⟨outcome, after⟩ := result
          cases outcome with
          | error error =>
              rw [resolveAll_of_error hresolve, List.mem_singleton] at h
              rw [h]
              exact ⟨List.mem_cons_self, e, resolve_iff.1 hresolve⟩
          | ok u =>
              rw [resolveAll_of_ok hresolve, List.mem_cons] at h
              rcases h with rfl | h
              · exact ⟨List.mem_cons_self, e, resolve_iff.1 hresolve⟩
              · obtain ⟨hmem, hresolves⟩ := ih h
                exact ⟨List.mem_cons_of_mem s hmem, hresolves⟩

/-- A refresh writes nothing but what the engine holds for the chains that the selector names. -/
theorem agreesOn_drain (h : (m.refresh ctx).1.drain e = .ok (pulls, after)) (he : e.Steady) :
    e.AgreesOn (· ∉ m.chainsAt ctx.time) after := by
  obtain ⟨-, -, rfl⟩ := drain_refresh_eq_ok.1 ⟨pulls, h, rfl⟩
  refine keep_resolveAll (P := fun mid => e.AgreesOn (· ∉ m.chainsAt ctx.time) mid) ?_ (.refl he)
  intro s hs before outcome mid hbefore hresolves
  refine hbefore.trans ((hresolves.agreesOn hbefore.right).imp fun chain hchain hkind heq => ?_)
  exact hchain (mem_chainsAt.2 ⟨s, List.mem_eraseDups.1 hs, hkind, heq⟩)

/-- A refresh gives universes of chains that the selector names. -/
theorem chain_mem_of_drain (h : (m.refresh ctx).1.drain e = .ok (pulls, after)) {p : Pull}
    (hp : p ∈ pulls) {u : ChainUniverse} (hu : p.outcome = .ok u) :
    u.chain ∈ m.chainsAt ctx.time := by
  obtain ⟨-, hshown, -⟩ := drain_refresh_eq_ok.1 ⟨pulls, h, rfl⟩
  have hmem : p.shown ∈ pulls.map (·.shown) := List.mem_map_of_mem hp
  rw [← hshown] at hmem
  obtain ⟨step, hstep, hsame⟩ := List.mem_map.1 hmem
  obtain ⟨hsymbol, before, hresolves⟩ := of_mem_resolveAll hstep
  rw [show step.outcome = .ok u from (congrArg (·.2.1) hsame).trans hu] at hresolves
  exact mem_chainsAt.2
    ⟨step.symbol, List.mem_eraseDups.1 hsymbol, hresolves.kind_eq, hresolves.chain_eq.symm⟩

/-- A refresh reads nothing but what the engine holds for the chains that the selector names: in
another engine that agrees there it gives the same, and the engines agree as before. -/
theorem drain_transfer (h : (m.refresh ctx).1.drain e = .ok (pulls, after))
    (hagree : e.AgreesOn P f) (hchains : ∀ chain ∈ m.chainsAt ctx.time, P chain) :
    ∃ pulls' after', (m.refresh ctx).1.drain f = .ok (pulls', after') ∧
      pulls'.map (·.terms) = pulls.map (·.terms) ∧ after.AgreesOn P after' ∧
      after'.tally.calls + e.tally.calls = after.tally.calls + f.tally.calls := by
  obtain ⟨hstop, hshown, rfl⟩ := drain_refresh_eq_ok.1 ⟨pulls, h, rfl⟩
  have hsymbols : ∀ s ∈ (m.selector.select ctx.time).eraseDups, s.kind = .future →
      P s.toCanonical := fun s hs hkind =>
    hchains _ (mem_chainsAt.2 ⟨s, List.mem_eraseDups.1 hs, hkind, rfl⟩)
  obtain ⟨hstop', hsame, hafter, hcalls⟩ := resolveAll_transfer hagree hsymbols hstop
  obtain ⟨pulls', hdrain', hshown'⟩ := drain_refresh_eq_ok.2 ⟨hstop', rfl, rfl⟩
  refine ⟨pulls', _, hdrain', ?_, hafter, hcalls⟩
  have hterms : ∀ {pulls : List Pull} {steps : List EagerStep},
      steps.map (·.shown) = pulls.map (·.shown) → pulls.map (·.terms) = steps.map (·.terms) := by
    intro pulls steps hshown
    have hmap := congrArg (List.map fun shown => (shown.1, outcomeTerms shown.2.1)) hshown
    rw [List.map_map, List.map_map] at hmap
    exact hmap.symm
  rw [hterms hshown'.symm, hterms hshown, hsame]

end SelectionModel

end FuturesChains
