import FuturesChains.Proofs.Selection.ChainIdentity
import FuturesChains.Proofs.Selection.EagerRefresh

/-!
# Refreshing again

The first refresh of some symbols registers the chains that have no security and attaches the
model's filter to all of them. A chain that it gave is settled: another resolution by the same model
finds the security and changes nothing (`Engine.Settled.resolve_eq`). A failure left no security, so
it comes again in the same way if the construction service answers a request as before
(`Resolves.error_again`). `refresh_idempotent` puts the two together over the symbols of a refresh:
the second one gives the results of the first, leaves the registry and the subscriptions, and asks
for construction only where the first one was refused.
-/

namespace FuturesChains

/-- The outcome is a construction that was refused. -/
def isRefused : Except SelectionError ChainUniverse → Bool
  | .error (.construction _) => true
  | _ => false

namespace Engine

/-- The engine after some more calls of the construction service, none of which built anything. -/
def countCalls (e : Engine) (calls : Nat) : Engine :=
  { e with tally := ⟨e.tally.calls + calls, e.tally.built⟩ }

/-- The registry leads from a chain to a security that has a filter and is closed for direct
trading, so attaching the filter once more changes nothing. -/
structure Settled (e : Engine) (filter : ContractFilter) (chain : Symbol) (id : SecurityId) :
    Prop where
  found : e.registry.find? chain = some id
  attached : ∀ security, e.registry.security? id = some security →
    security.attach filter = security

end Engine

/-- A change of a cell that its security does not notice is none. -/
theorem Registry.modify_eq_self {r : Registry} {id : SecurityId} {f : Security → Security}
    (h : ∀ security, r.security? id = some security → f security = security) :
    r.modify id f = r := by
  have hcells : r.cells.modify id.cell f = r.cells := by
    apply List.ext_getElem?
    intro i
    rw [List.getElem?_modify]
    by_cases hi : id.cell = i
    · subst hi
      cases hcell : r.cells[id.cell]? with
      | none => rfl
      | some security => simp [h security hcell]
    · simp [hi]
  simp only [modify, hcells]

@[simp] theorem Security.attach_attach (filter : ContractFilter) (s : Security) :
    (s.attach filter).attach filter = s.attach filter := rfl

/-- A service that repeats its refusals fails once more where it failed, in the table that it
left. -/
theorem ConstructionService.Repeats.construct_again {service : ConstructionService}
    (hservice : service.Repeats) {q : SecurityRequest} {table left : SubscriptionTable}
    {error : ConstructionError} (h : service.construct q table = (.error error, left)) :
    service.construct q left = (.error error, left) := by
  rcases construct_eq_error_iff.1 h with ⟨causes, hrefusal, herror⟩ | ⟨-, hlot, herror, rfl⟩
  · exact construct_eq_error_iff.2 (.inl ⟨causes, hservice q table causes left hrefusal, herror⟩)
  · exact h

namespace Engine.Settled

variable {e after f : Engine} {filter : ContractFilter} {chain : Symbol} {id : SecurityId}

/-- Only the registry tells whether a chain is settled. -/
theorem of_registry (h : e.Settled filter chain id) (hregistry : f.registry = e.registry) :
    f.Settled filter chain id := by
  obtain ⟨hfound, hattached⟩ := h
  rw [← hregistry] at hfound hattached
  exact ⟨hfound, hattached⟩

/-- A symbol of a settled chain gives the universe of its security and leaves the engine. -/
theorem resolve_eq {m : SelectionModel} {s : Symbol} (h : e.Settled m.filter s.toCanonical id)
    (hkind : s.kind = .future) (ctx : SelectionContext) :
    m.resolve ctx e s = .ok (.ok (m.chainUniverse ctx s.toCanonical id), e) := by
  rw [SelectionModel.resolve_of_registered hkind h.found, Engine.modify,
    Registry.modify_eq_self h.attached]

/-- A settled chain stays so when a model with this filter resolves any symbol. -/
theorem resolves {m : SelectionModel} {ctx : SelectionContext} {s : Symbol}
    {outcome : Except SelectionError ChainUniverse} (h : e.Settled m.filter chain id)
    (hresolves : Resolves m ctx e s outcome after) : after.Settled m.filter chain id where
  found := hresolves.keptBy chain id h.found
  attached := by
    intro security hsecurity
    cases hresolves with
    | invalidKind | unknown | refused => exact h.attached security hsecurity
    | reused other hkind hfind =>
        by_cases hid : id = other
        · rw [hid, Engine.modify, Registry.security?_modify_self] at hsecurity
          obtain ⟨old, -, rfl⟩ := Option.map_eq_some_iff.1 hsecurity
          exact Security.attach_attach m.filter old
        · rw [Engine.modify, Registry.security?_modify_of_ne hid] at hsecurity
          exact h.attached security hsecurity
    | created hours properties new table =>
        simp only [Engine.extend, Registry.security?, Registry.extend,
          List.getElem?_append] at hsecurity
        split at hsecurity
        · exact h.attached security hsecurity
        · obtain rfl := List.mem_singleton.1 (List.mem_of_getElem? hsecurity)
          exact Security.attach_attach m.filter new

end Engine.Settled

namespace Resolves

variable {m : SelectionModel} {ctx : SelectionContext} {e after : Engine} {s : Symbol}

/-- A resolution that gives a universe settles the chain. -/
theorem settled {u : ChainUniverse} (h : Resolves m ctx e s (.ok u) after) :
    after.Settled m.filter s.toCanonical u.security where
  found := by
    rw [← h.chain_eq]
    exact h.find?_given
  attached := by
    intro security hsecurity
    cases h with
    | reused id hkind hfind =>
        rw [SelectionModel.chainUniverse, Engine.modify,
          Registry.security?_modify_self] at hsecurity
        obtain ⟨old, -, rfl⟩ := Option.map_eq_some_iff.1 hsecurity
        exact Security.attach_attach m.filter old
    | created hours properties new table =>
        obtain rfl := Option.some.inj ((Registry.security?_extend_length _ _).symm.trans hsecurity)
        exact Security.attach_attach m.filter new

/-- Only a future gives a universe. -/
theorem kind_eq {u : ChainUniverse} (h : Resolves m ctx e s (.ok u) after) : s.kind = .future := by
  cases h with
  | reused | created => assumption

/-- A resolution leaves the facilities. -/
theorem facilities_eq {outcome : Except SelectionError ChainUniverse}
    (h : Resolves m ctx e s outcome after) : after.facilities = e.facilities := by
  cases h <;> rfl

/-- A failure comes again in every engine with these facilities, registry and subscriptions, and
construction is called for once more if it was called for the first time. -/
theorem error_again {again : SelectionContext} {error : SelectionError} {f : Engine}
    (h : Resolves m ctx e s (.error error) after) (hservice : e.facilities.service.Repeats)
    (hdefaults : again.defaults = ctx.defaults) (hregistry : f.registry = after.registry)
    (hsubscriptions : f.subscriptions = after.subscriptions)
    (hfacilities : f.facilities = after.facilities) :
    m.resolve again f s =
      .ok (.error error, f.countCalls (if isRefused (.error error) then 1 else 0)) := by
  have hrequest : ∀ chain hours properties,
      m.chainRequest again f.facilities chain hours properties =
        m.chainRequest ctx e.facilities chain hours properties := by
    intro chain hours properties
    rw [hfacilities, h.facilities_eq]
    simp only [SelectionModel.chainRequest, SelectionModel.effectiveSettings,
      SelectionModel.effectiveInitializer, hdefaults]
  rw [h.facilities_eq] at hfacilities
  refine resolve_iff.2 ?_
  cases h with
  | invalidKind hkind => exact .invalidKind hkind
  | unknown error hkind hfind hmetadata =>
      exact .unknown error hkind (by rwa [hregistry]) (by rwa [hfacilities])
  | refused hours properties error table hkind hfind hmetadata hconstruct =>
      have hnone : f.registry.find? s.toCanonical = none := by
        rw [hregistry]
        exact hfind
      have htable : f.countCalls 1 = f.countRefusal table := by
        simp only [Engine.countCalls, Engine.countRefusal,
          show table = f.subscriptions from hsubscriptions.symm]
      rw [isRefused, if_pos rfl, htable]
      refine .refused hours properties error table hkind hnone (by rwa [hfacilities]) ?_
      rw [hrequest, hfacilities, hsubscriptions]
      exact hservice.construct_again hconstruct

end Resolves

/-- Resolutions leave the facilities. -/
theorem Resolutions.facilities_eq {e after : Engine} {log : List Attempt}
    (h : Resolutions e log after) : after.facilities = e.facilities := by
  induction h with
  | refl e => rfl
  | cons hfirst _ ih => exact ih.trans hfirst.facilities_eq

/-- Pulling to the end succeeds without a stop, shows every result and leaves the last engine. -/
theorem EagerRefresh.drain_eq_ok {r : EagerRefresh} {e after : Engine} {shown : List Shown} :
    r.drain e = .ok (shown, after) ↔
      r.stop = none ∧ r.steps.map (·.shown) = shown ∧ engineAfter e r.steps = after := by
  unfold drain
  cases r.stop <;> simp

/-- The result once more in another engine, which a refused construction makes count one more
call. -/
def EagerStep.again (s : EagerStep) (f : Engine) : EagerStep :=
  { s with engine := f.countCalls (if isRefused s.outcome then 1 else 0) }

namespace SelectionModel

variable {m : SelectionModel} {ctx again : SelectionContext} {e f : Engine} {symbols : List Symbol}

/-- After a universe the other symbols are resolved in the engine that it left. -/
theorem resolveAll_of_ok {after : Engine} {s : Symbol} {u : ChainUniverse}
    (h : m.resolve ctx e s = .ok (.ok u, after)) (rest : List Symbol) :
    m.resolveAll ctx e (s :: rest) =
      ⟨⟨s, .ok u, after⟩ :: (m.resolveAll ctx after rest).steps,
        (m.resolveAll ctx after rest).stop⟩ := by
  simp only [resolveAll, h]

/-- Nothing is resolved after an error. -/
theorem resolveAll_of_error {after : Engine} {s : Symbol} {error : SelectionError}
    (h : m.resolve ctx e s = .ok (.error error, after)) (rest : List Symbol) :
    m.resolveAll ctx e (s :: rest) = ⟨[⟨s, .error error, after⟩], none⟩ := by
  simp only [resolveAll, h]

/-- What holds of an engine and is kept by the resolution of every one of some symbols holds after
all of them. -/
theorem keep_resolveAll {P : Engine → Prop}
    (hkeep : ∀ s ∈ symbols, ∀ before outcome after, P before →
      Resolves m ctx before s outcome after → P after) (h : P e) :
    P (EagerRefresh.engineAfter e (m.resolveAll ctx e symbols).steps) := by
  induction symbols generalizing e with
  | nil => exact h
  | cons s rest ih =>
      obtain ⟨hfirst, hrest⟩ := List.forall_mem_cons.1 hkeep
      cases hresolve : m.resolve ctx e s with
      | error stop =>
          rw [resolveAll, hresolve]
          exact h
      | ok result =>
          obtain ⟨outcome, after⟩ := result
          have hafter := hfirst e outcome after h (resolve_iff.1 hresolve)
          cases outcome with
          | error error =>
              rw [resolveAll_of_error hresolve]
              exact hafter
          | ok u =>
              rw [resolveAll_of_ok hresolve]
              exact ih hrest hafter

/-- Symbols that were resolved give the same results in every engine with the registry and the
subscriptions that they left. Such an engine stays as it is until a construction is refused, which
is the last result. -/
theorem resolveAll_again (hservice : e.facilities.service.Repeats)
    (hdefaults : again.defaults = ctx.defaults)
    (hstop : (m.resolveAll ctx e symbols).stop = none)
    (hregistry : f.registry =
      (EagerRefresh.engineAfter e (m.resolveAll ctx e symbols).steps).registry)
    (hsubscriptions : f.subscriptions =
      (EagerRefresh.engineAfter e (m.resolveAll ctx e symbols).steps).subscriptions)
    (hfacilities : f.facilities = e.facilities) :
    m.resolveAll again f symbols =
        ⟨(m.resolveAll ctx e symbols).steps.map (·.again f), none⟩ ∧
      EagerRefresh.engineAfter f ((m.resolveAll ctx e symbols).steps.map (·.again f)) =
        f.countCalls ((m.resolveAll ctx e symbols).steps.countP (isRefused ·.outcome)) ∧
      (m.resolveAll ctx e symbols).steps.countP (isRefused ·.outcome) ≤ 1 := by
  induction symbols generalizing e with
  | nil => exact ⟨rfl, rfl, by simp [resolveAll]⟩
  | cons s rest ih =>
      cases hresolve : m.resolve ctx e s with
      | error stop => simp [resolveAll, hresolve] at hstop
      | ok result =>
          obtain ⟨outcome, after⟩ := result
          have hresolves := resolve_iff.1 hresolve
          rw [← hresolves.facilities_eq] at hfacilities
          cases outcome with
          | error error =>
              rw [resolveAll_of_error hresolve] at hregistry hsubscriptions ⊢
              rw [resolveAll_of_error (hresolves.error_again hservice hdefaults hregistry
                hsubscriptions hfacilities)]
              refine ⟨rfl, ?_, List.countP_le_length⟩
              simp [EagerRefresh.engineAfter, EagerStep.again]
          | ok u =>
              rw [resolveAll_of_ok hresolve] at hstop hregistry hsubscriptions ⊢
              rw [← hresolves.facilities_eq] at hservice
              -- the rest of the first refresh keeps the chain of this symbol settled
              have hkept : (EagerRefresh.engineAfter after
                  (m.resolveAll ctx after rest).steps).Settled m.filter s.toCanonical u.security :=
                keep_resolveAll (P := fun e => e.Settled m.filter s.toCanonical u.security)
                  (fun _ _ _ _ _ hbefore hlater => hbefore.resolves hlater) hresolves.settled
              have hsettled := hkept.of_registry hregistry
              have hgiven : m.chainUniverse again s.toCanonical u.security = u := by
                refine Eq.trans ?_ hresolves.universe_eq.symm
                simp only [chainUniverse, effectiveSettings, effectiveInitializer, hdefaults]
              have hagain := hsettled.resolve_eq hresolves.kind_eq again
              rw [hgiven] at hagain
              obtain ⟨hrest, hengine, hcount⟩ :=
                ih hservice hstop hregistry hsubscriptions hfacilities
              rw [resolveAll_of_ok hagain, hrest]
              exact ⟨rfl, hengine, hcount⟩

/-- A refresh that is pulled to its end shows the results of resolving the selected symbols, each
once, and leaves the engine that they left. -/
theorem drain_refresh_eq_ok {mid : Engine} {shown : List Shown} :
    (∃ pulls, (m.refresh ctx).1.drain e = .ok (pulls, mid) ∧ pulls.map (·.shown) = shown) ↔
      (m.resolveAll ctx e (m.selector.select ctx.time).eraseDups).stop = none ∧
        (m.resolveAll ctx e (m.selector.select ctx.time).eraseDups).steps.map (·.shown) = shown ∧
        EagerRefresh.engineAfter e
          (m.resolveAll ctx e (m.selector.select ctx.time).eraseDups).steps = mid := by
  have hdrain := drain_refresh m ctx e
  rw [eager] at hdrain
  rw [← EagerRefresh.drain_eq_ok, ← hdrain, Halt.map_eq_ok]
  simp [Refresh.shownAll, and_comm]

/-- Refreshing is idempotent. A second refresh of the same symbols by the same model, at any other
time but with the same defaults, gives the same symbols with the same outcomes. It leaves the engine
but for the count of calls: the service is called once more for the symbol whose construction was
refused, of which there is at most one, and builds nothing. So no initializer runs, for it runs
where a security is built. The construction service repeats its refusals, as every service does
that answers by the request and leaves the table of subscriptions where it refuses. -/
theorem refresh_idempotent {mid : Engine} {pulls : List Pull}
    (hservice : e.facilities.service.Repeats)
    (hdrain : (m.refresh ctx).1.drain e = .ok (pulls, mid))
    (hdefaults : again.defaults = ctx.defaults)
    (hselect : m.selector.select again.time = m.selector.select ctx.time) (clock : Instant) :
    ∃ pulls' last,
      ((m.refresh ctx).2.refresh again).1.drain (mid.setClock clock) = .ok (pulls', last) ∧
        pulls'.map (·.shown) = pulls.map (fun p => (p.symbol, p.outcome,
          ⟨mid.tally.calls + if isRefused p.outcome then 1 else 0, mid.registry.size⟩)) ∧
        last = { mid with
          clock
          tally := ⟨mid.tally.calls + pulls.countP (isRefused ·.outcome), mid.tally.built⟩ } ∧
        pulls.countP (isRefused ·.outcome) ≤ 1 := by
  obtain ⟨hstop, hshown, hmid⟩ := drain_refresh_eq_ok.1 ⟨pulls, hdrain, rfl⟩
  let steps := (m.resolveAll ctx e (m.selector.select ctx.time).eraseDups).steps
  have hfacilities : (mid.setClock clock).facilities = e.facilities :=
    (Resolutions.of_drain hdrain).facilities_eq
  have hregistry : (mid.setClock clock).registry =
      (EagerRefresh.engineAfter e steps).registry := congrArg (·.registry) hmid.symm
  have hsubscriptions : (mid.setClock clock).subscriptions =
      (EagerRefresh.engineAfter e steps).subscriptions := congrArg (·.subscriptions) hmid.symm
  obtain ⟨hagain, hengine, hcount⟩ :=
    resolveAll_again hservice hdefaults hstop hregistry hsubscriptions hfacilities
  have hsecond : (m.refresh ctx).2.resolveAll again (mid.setClock clock)
      ((m.refresh ctx).2.selector.select again.time).eraseDups =
        ⟨steps.map (·.again (mid.setClock clock)), none⟩ := by
    rw [← hagain, ← hselect]
    exact resolveAll_schedule m _ _ again _ _
  obtain ⟨pulls', hdrain', hshown'⟩ := drain_refresh_eq_ok.2 ⟨by rw [hsecond], rfl, rfl⟩
  rw [hsecond] at hshown' hdrain'
  have hpulls : pulls.countP (isRefused ·.outcome) = steps.countP (isRefused ·.outcome) := by
    have hcounts := congrArg (List.countP fun shown => isRefused shown.2.1) hshown
    rw [List.countP_map, List.countP_map] at hcounts
    exact hcounts.symm
  refine ⟨pulls', _, hdrain', ?_, ?_, hpulls.trans_le hcount⟩
  · -- the results of the first refresh, each with the counts of the second
    have hresults := congrArg (List.map fun shown => (shown.1, shown.2.1, EngineCounts.mk
      (mid.tally.calls + if isRefused shown.2.1 then 1 else 0) mid.registry.size)) hshown
    rw [List.map_map, List.map_map] at hresults
    rw [hshown', List.map_map]
    exact hresults
  · rw [hengine, hpulls]
    rfl

/-- Crude oil is resolved by a contract and by its chain, and natural gas is refused. An hour later
the same comes of it, and only the call for natural gas is made again. -/
theorem refresh_idempotent_oil_and_gas :
    let oil : Symbol := .undated "CL" .future .nymex
    let gas : Symbol := .undated "NG" .future .nymex
    let m := SelectionModel.ofSelector (⟨60⟩ : Span)
      (.standing [.future "CL" .nymex default, oil, gas, oil])
    let hour : Instant := ⟨3600, 0, by decide⟩
    ∃ pulls mid pulls' last,
      (m.refresh ⟨default, .standard⟩).1.drain
          (.start (.traded (.refusing ["NG"] ["no data"])) default) = .ok (pulls, mid) ∧
        ((m.refresh ⟨default, .standard⟩).2.refresh ⟨hour, .standard⟩).1.drain
          (mid.setClock hour) = .ok (pulls', last) ∧
        pulls'.map (·.outcome) = pulls.map (·.outcome) ∧
        pulls'.map (·.counts) = [⟨2, 1⟩, ⟨2, 1⟩, ⟨3, 1⟩] ∧
        last.registry = mid.registry ∧ last.tally = ⟨3, 1⟩ := by
  intro oil gas m hour
  have hrun : ((m.refresh ⟨default, .standard⟩).1.drain
      (.start (.traded (.refusing ["NG"] ["no data"])) default)).map (fun result =>
        (result.1.map fun p => isRefused p.outcome, result.2.tally, result.2.registry.size)) =
      .ok ([false, false, true], ⟨2, 1⟩, 1) := by
    decide +kernel
  obtain ⟨⟨pulls, mid⟩, hdrain, hresult⟩ := Halt.map_eq_ok.1 hrun
  simp only [Prod.mk.injEq] at hresult
  obtain ⟨hrefused, htally, hsize⟩ := hresult
  have hdefaults : (SelectionContext.mk hour .standard).defaults = .standard := rfl
  have hservice : (ConstructionService.refusing ["NG"] ["no data"]).Repeats :=
    (ConstructionService.refusing_leavesTable ["NG"] ["no data"]).repeats
  obtain ⟨pulls', last, hdrain', hshown, rfl, -⟩ :=
    refresh_idempotent hservice hdrain hdefaults rfl hour
  refine ⟨pulls, mid, pulls', _, hdrain, hdrain', ?_, ?_, rfl, ?_⟩
  · have houtcomes := congrArg (List.map (·.2.1)) hshown
    rw [List.map_map, List.map_map] at houtcomes
    exact houtcomes
  · have hcounts := congrArg (List.map (·.2.2)) hshown
    rw [htally, hsize, List.map_map, List.map_map] at hcounts
    have hcalls := congrArg (List.map fun refused =>
      EngineCounts.mk (2 + if refused then 1 else 0) 1) hrefused
    rw [List.map_map] at hcalls
    exact hcounts.trans hcalls
  · have hcount := congrArg (List.countP id) hrefused
    rw [List.countP_map] at hcount
    have hone : pulls.countP (isRefused ·.outcome) = 1 := hcount
    rw [htally, hone]

end SelectionModel

end FuturesChains
