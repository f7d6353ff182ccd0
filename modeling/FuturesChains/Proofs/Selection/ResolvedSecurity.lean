import FuturesChains.Proofs.Selection.ChainLocality
import FuturesChains.Proofs.Selection.FirstFault

/-!
# The security that a resolution leaves

Five hands set what can change of a chain's security: it is assembled tradable and at leverage one,
its initializer may set all of it, explicit settings set the leverage, and last the model attaches
its filter and closes the security for direct trading. `resolution_decides_security` says what comes
of it, for a chain that is new and for one that had a security, which whoever held it may have
changed.
-/

namespace FuturesChains

/-- The leverage that a change sets. -/
def SecurityChange.leverage? : SecurityChange → Option Decimal
  | .leverage value => some value
  | .tradable _ | .filter _ => none

/-- The leverage that an initializer sets last. -/
def Initializer.lastLeverage? (changes : Initializer) : Option Decimal :=
  (changes.filterMap (·.leverage?)).getLast?

/-- What an initializer does to a security that a filter is then attached to: it sets the leverage,
and nothing else is left of it. -/
theorem Security.attach_run (s : Security) (changes : Initializer) (filter : ContractFilter) :
    (s.run changes).attach filter =
      { s with
        tradable := false
        leverage := changes.lastLeverage?.getD s.leverage
        filter } := by
  induction changes generalizing s with
  | nil => rfl
  | cons change rest ih =>
      have hrest : (s.run (change :: rest)).attach filter =
          ((s.change change).run rest).attach filter := rfl
      rw [hrest, ih]
      cases change with
      | tradable value | filter value => rfl
      | leverage value =>
          simp [Initializer.lastLeverage?, SecurityChange.leverage?, Security.change,
            List.getLast?_cons]

/-- All of a new security that a filter is attached to. An explicit leverage comes before the last
one of the initializer, and that before leverage one. -/
theorem SecurityRequest.attach_security (q : SecurityRequest) (subscription : Subscription)
    (filter : ContractFilter) : (q.security subscription).attach filter =
      { symbol := q.symbol
        properties := q.properties
        hours := q.hours.hours
        dataZone := q.hours.dataZone
        subscription
        tradable := false
        leverage := (q.leverage.or q.initializer.lastLeverage?).getD .one
        filter } := by
  unfold security
  cases hleverage : q.leverage with
  | some value =>
      exact congrArg (fun made : Security => { made with leverage := value })
        (Security.attach_run _ q.initializer filter)
  | none => exact Security.attach_run _ q.initializer filter

/-- A successful resolution gives the universe of the chain with the model's own settings and
initializer, or the defaults. The security of the chain has the model's filter and is closed for
direct trading. If there was one it keeps all the rest, with whatever its holders set, and the
initializer has no part in it. If there was none it is described by the facilities, and its leverage
is the explicit one of the settings, else the last one of the initializer, else one. -/
theorem resolution_decides_security {m : SelectionModel} {ctx : SelectionContext}
    {e after : Engine} {s : Symbol} {u : ChainUniverse} (hindexed : e.registry.Indexed)
    (h : m.resolve ctx e s = .ok (.ok u, after)) :
    u.chain = s.toCanonical ∧
      u.settings = m.settings.getD ctx.defaults.settings ∧
      u.initializer = m.initializer.getD ctx.defaults.initializer ∧
      after.registry.find? s.toCanonical = some u.security ∧
      ∃ security, after.registry.security? u.security = some security ∧
        security.tradable = false ∧ security.filter = m.filter ∧
        match e.registry.find? s.toCanonical with
        | some id =>
          u.security = id ∧ after = { e with registry := after.registry } ∧
            (∃ old, e.registry.security? id = some old ∧
              security = { old with tradable := false, filter := m.filter }) ∧
            ∀ initializer, SelectionModel.resolve { m with initializer } ctx e s =
              .ok (.ok { u with
                initializer := initializer.getD ctx.defaults.initializer }, after)
        | none =>
          ∃ hours properties, e.facilities.Describes s.toCanonical hours properties ∧
            security =
              { symbol := s.toCanonical
                properties
                hours := hours.hours
                dataZone := hours.dataZone
                subscription := (e.subscriptions.add (m.chainRequest ctx e.facilities
                  s.toCanonical hours properties).subscription).1
                tradable := false
                leverage := (u.settings.leverage.or u.initializer.lastLeverage?).getD .one
                filter := m.filter } := by
  have hresolves := resolve_iff.1 h
  refine ⟨hresolves.chain_eq, congrArg (·.settings) hresolves.universe_eq,
    congrArg (·.initializer) hresolves.universe_eq, ?_, ?_⟩
  · rw [← hresolves.chain_eq]
    exact hresolves.find?_given
  · cases hresolves with
    | reused id hkind hfind =>
        obtain ⟨old, hold⟩ := Option.isSome_iff_exists.1 (hindexed.isSome_security? hfind)
        have hattached : (e.registry.modify id (.attach m.filter)).security? id =
            some (old.attach m.filter) := by
          rw [Registry.security?_modify_self, hold]
          rfl
        rw [hfind]
        exact ⟨old.attach m.filter, hattached, rfl, rfl, rfl, rfl, ⟨old, hold, rfl⟩,
          fun initializer => SelectionModel.resolve_of_registered hkind hfind⟩
    | created hours properties security table hkind hfind hmetadata hconstruct =>
        obtain ⟨-, -, rfl, rfl⟩ := ConstructionService.construct_eq_ok hconstruct
        rw [hfind]
        exact ⟨_, Registry.security?_extend_length _ _, rfl, rfl, hours, properties,
          Facilities.metadata_eq_ok_iff.1 hmetadata, SecurityRequest.attach_security _ _ _⟩

/-- An initializer sets the leverage of crude oil twice, opens it for trading and clears its filter.
The second leverage stays, the rest does not. Another model, which asks for leverage one, takes the
chain over with a filter of its own and its settings, and finds the leverage as it was. -/
theorem resolution_decides_security_crude_oil :
    let oil : Symbol := .undated "CL" .future .nymex
    let contract : Symbol := .future "CL" .nymex default
    let triple : Decimal := { negative := false, mantissa := 3, scale := 0 }
    let ctx : SelectionContext := ⟨default, .standard⟩
    let first : SelectionModel :=
      { SelectionModel.ofSelector (⟨60⟩ : Span) (.standing [oil]) with
        initializer := some [.leverage .zero, .tradable true, .leverage triple, .filter .identity]
        filter := .frontMonth 90 }
    let second : SelectionModel :=
      { SelectionModel.ofSelector (⟨60⟩ : Span) (.standing [oil]) with
        settings := some { UniverseSettings.standard with leverage := some .one }
        filter := .frontMonth 30 }
    ∃ u v mid last old new,
      first.resolve ctx (.start (.traded .standard) default) oil = .ok (.ok u, mid) ∧
        mid.registry.security? u.security = some old ∧
        old.leverage = triple ∧ old.tradable = false ∧ old.filter = .frontMonth 90 ∧
        second.resolve ctx mid contract = .ok (.ok v, last) ∧
        last.registry.security? v.security = some new ∧ v.settings.leverage = some .one ∧
        new.leverage = triple ∧ new.tradable = false ∧ new.filter = .frontMonth 30 := by
  intro oil contract triple ctx first second
  let start := Engine.start (.traded .standard) default
  have hrun : (first.resolve ctx start oil >>= fun made =>
      (second.resolve ctx made.2 contract).map fun taken =>
        (made.1.isOk, taken.1.isOk)) = .ok (true, true) := by
    decide +kernel
  simp only [Halt.bind_eq_ok, Halt.map_eq_ok, Prod.mk.injEq] at hrun
  obtain ⟨⟨made, mid⟩, hmade, ⟨taken, last⟩, htaken, hmadeOk, htakenOk⟩ := hrun
  cases made with
  | error error => cases hmadeOk
  | ok u =>
    cases taken with
    | error error => cases htakenOk
    | ok v =>
        have hkeyed : start.ChainKeyed := Engine.ChainKeyed.start _ _
        obtain ⟨-, hsettings, hinitializer, hfind, old, hold, htradable, hfilter, hcreated⟩ :=
          resolution_decides_security hkeyed.indexed hmade
        obtain ⟨hours, properties, -, hsecurity⟩ := hcreated
        obtain ⟨-, hsettings', -, -, new, hnew, htradable', hfilter', hreused⟩ :=
          resolution_decides_security (hkeyed.resolves (resolve_iff.1 hmade)).indexed htaken
        have hleverage : old.leverage = triple := by
          rw [hsecurity]
          simp only [hsettings, hinitializer]
          rfl
        have hsame : mid.registry.find? contract.toCanonical = some u.security := hfind
        rw [hsame] at hreused
        obtain ⟨-, -, ⟨kept, hkept, rfl⟩, -⟩ := hreused
        obtain rfl := Option.some.inj (hold.symm.trans hkept)
        exact ⟨u, v, mid, last, old, _, hmade, hold, hleverage, htradable, hfilter, htaken, hnew,
          congrArg (·.leverage) hsettings', hleverage, rfl, rfl⟩

end FuturesChains
