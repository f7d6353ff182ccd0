import FuturesChains.Proofs.Selection.Host
import FuturesChains.Proofs.Selection.RefreshAgain

/-!
# Failed resolutions

A resolution fails for its symbol's kind, for hours or properties that are missing, or because
construction is refused. `Fault m ctx e s error` says of each of these on its own that it is there,
whatever else is amiss. `failed_resolution_changes_nothing` says that the error of a resolution is
the first fault in that order, that a failure leaves the engine but for the count of construction
calls, and that a symbol of a registered chain cannot fail, whatever the engine's facilities are.
The subscriptions are left if the construction service leaves them where it refuses a request; no
other failure depends on that.
-/

namespace FuturesChains

/-- The facilities have hours and properties for a symbol on its own market. -/
structure Facilities.Describes (f : Facilities) (s : Symbol) (hours : HoursEntry)
    (properties : Properties) : Prop where
  hours : f.hours.lookup? s.market s s.kind = some hours
  properties : ∃ entry, f.properties.lookup? s.market s s.kind = some entry ∧
    entry.resolve? f.account = some properties

theorem Facilities.metadata_eq_ok_iff {f : Facilities} {s : Symbol} {hours : HoursEntry}
    {properties : Properties} :
    f.metadata s = .ok (.ok (hours, properties)) ↔ f.Describes s hours properties := by
  unfold metadata HoursTable.hours PropertyTable.properties
  constructor
  · intro h
    cases hhours : f.hours.lookup? s.market s s.kind with
    | none => simp [hhours] at h
    | some found =>
        cases hentry : f.properties.lookup? s.market s s.kind with
        | none => simp [hhours, hentry, Except.map] at h
        | some entry =>
            cases hresolve : entry.resolve? f.account with
            | none => simp [hhours, hentry, hresolve, Halt.orStop, Except.map] at h
            | some resolved =>
                simp only [hhours, hentry, hresolve, Halt.orStop, Except.map] at h
                cases h
                exact ⟨hhours, entry, hentry, hresolve⟩
  · rintro ⟨hhours, entry, hentry, hresolve⟩
    simp only [hhours, hentry, hresolve, Halt.orStop, Except.map]

/-- Metadata is missing if there are no hours, or hours but no properties. -/
theorem Facilities.metadata_eq_error_iff {f : Facilities} {s : Symbol} {error : MetadataError} :
    f.metadata s = .ok (.error error) ↔
      f.hours.lookup? s.market s s.kind = none ∧ error = .unknownHours s.market s s.kind ∨
        f.hours.lookup? s.market s s.kind ≠ none ∧
          f.properties.lookup? s.market s s.kind = none ∧
          error = .unknownProperties s.market s s.kind := by
  unfold metadata HoursTable.hours PropertyTable.properties
  cases hhours : f.hours.lookup? s.market s s.kind with
  | none => simp [eq_comm (a := error)]
  | some found =>
      cases hentry : f.properties.lookup? s.market s s.kind with
      | none => simp [Except.map, eq_comm (a := error)]
      | some entry =>
          cases hresolve : entry.resolve? f.account with
          | none => simp [hresolve, Halt.orStop, Except.map]
          | some resolved => simp [hresolve, Halt.orStop, Except.map]

/-- Something stands in the way of resolving a symbol, and the error names it. Every fault is there
or not on its own: missing hours do not ask for the kind, nor missing properties for hours. -/
inductive Fault (m : SelectionModel) (ctx : SelectionContext) (e : Engine) (s : Symbol) :
    SelectionError → Prop where
  | kind (hkind : s.kind ≠ .future) : Fault m ctx e s (.invalidKind s)
  | hours (hnone : e.facilities.hours.lookup? s.market s.toCanonical s.kind = none) :
      Fault m ctx e s (.metadata (.unknownHours s.market s.toCanonical s.kind))
  | properties (hnone : e.facilities.properties.lookup? s.market s.toCanonical s.kind = none) :
      Fault m ctx e s (.metadata (.unknownProperties s.market s.toCanonical s.kind))
  | refused (hours : HoursEntry) (properties : Properties) (causes : List String)
      (left : SubscriptionTable)
      (hdescribed : e.facilities.Describes s.toCanonical hours properties)
      (hrefusal : e.facilities.service.refusal
        (e.facilities.request s.toCanonical hours properties
          (m.settings.getD ctx.defaults.settings) (m.initializer.getD ctx.defaults.initializer))
        e.subscriptions = some (causes, left)) :
      Fault m ctx e s (.construction (.refused causes))
  | lotSize (hours : HoursEntry) (properties : Properties)
      (hdescribed : e.facilities.Describes s.toCanonical hours properties)
      (hrefusal : e.facilities.service.refusal
        (e.facilities.request s.toCanonical hours properties
          (m.settings.getD ctx.defaults.settings) (m.initializer.getD ctx.defaults.initializer))
        e.subscriptions = none)
      (hlot : properties.lotSize.isPositive = false) :
      Fault m ctx e s (.construction (.lotSize properties.lotSize s.toCanonical))

/-- The place of an error in the order of the checks. -/
def SelectionError.stage : SelectionError → Nat
  | .invalidKind _ => 0
  | .metadata (.unknownHours ..) => 1
  | .metadata (.unknownProperties ..) => 2
  | .construction _ => 3

/-- A fault that no other one comes before. -/
structure FirstFault (m : SelectionModel) (ctx : SelectionContext) (e : Engine) (s : Symbol)
    (error : SelectionError) : Prop where
  applies : Fault m ctx e s error
  first : ∀ other, Fault m ctx e s other → error.stage ≤ other.stage

namespace Resolves

variable {m : SelectionModel} {ctx : SelectionContext} {e after : Engine} {s : Symbol}
  {error : SelectionError}

/-- A failure leaves the engine, but for the count of a construction call that failed and for the
table of subscriptions that it left. A service that leaves the table where it refuses, and a lot
size that is wrong, leave it as it was. -/
theorem eq_countCalls (h : Resolves m ctx e s (.error error) after) :
    (∃ table, after = { e.countCalls (if isRefused (.error error) then 1 else 0) with
        subscriptions := table }) ∧
      (e.facilities.service.LeavesTable ∨ (∀ causes, error ≠ .construction (.refused causes)) →
        after = e.countCalls (if isRefused (.error error) then 1 else 0)) := by
  cases h with
  | invalidKind | unknown => exact ⟨⟨e.subscriptions, rfl⟩, fun _ => rfl⟩
  | refused hours properties refusal table hkind hfind hmetadata hconstruct =>
      refine ⟨⟨table, rfl⟩, fun hleaves => ?_⟩
      have htable : table = e.subscriptions := by
        rcases hleaves with hservice | hlot
        · exact hservice.eq_of_construct hconstruct
        · rcases ConstructionService.construct_eq_error_iff.1 hconstruct with
            ⟨causes, -, rfl⟩ | ⟨-, -, -, htable⟩
          · exact absurd rfl (hlot causes)
          · exact htable
      rw [htable]
      rfl

/-- A failure is for the first fault. -/
theorem firstFault (h : Resolves m ctx e s (.error error) after) :
    FirstFault m ctx e s error := by
  cases h with
  | invalidKind hkind => exact ⟨.kind hkind, fun other _ => Nat.zero_le _⟩
  | unknown missing hkind hfind hmetadata =>
      rcases Facilities.metadata_eq_error_iff.1 hmetadata with ⟨hnone, rfl⟩ | ⟨hsome, hnone, rfl⟩
      · refine ⟨.hours hnone, fun other hother => ?_⟩
        cases hother with
        | kind hother => exact absurd hkind hother
        | hours | properties | refused | lotSize => simp [SelectionError.stage]
      · refine ⟨.properties hnone, fun other hother => ?_⟩
        cases hother with
        | kind hother => exact absurd hkind hother
        | hours hother => exact absurd hother hsome
        | properties | refused | lotSize => simp [SelectionError.stage]
  | refused hours properties refusal table hkind hfind hmetadata hconstruct =>
      have hdescribed := Facilities.metadata_eq_ok_iff.1 hmetadata
      have hlast : ∀ other, Fault m ctx e s other →
          (SelectionError.construction refusal).stage ≤ other.stage := by
        intro other hother
        cases hother with
        | kind hother => exact absurd hkind hother
        | hours hother => exact absurd (hother.symm.trans hdescribed.hours) nofun
        | properties hother =>
            obtain ⟨entry, hentry, -⟩ := hdescribed.properties
            exact absurd (hother.symm.trans hentry) nofun
        | refused | lotSize => exact Nat.le_refl _
      rcases ConstructionService.construct_eq_error_iff.1 hconstruct with
        ⟨causes, hrefusal, rfl⟩ | ⟨hrefusal, hlot, rfl, -⟩
      · exact ⟨.refused hours properties causes table hdescribed hrefusal, hlast⟩
      · exact ⟨.lotSize hours properties hdescribed hrefusal hlot, hlast⟩

end Resolves

namespace FirstFault

variable {m : SelectionModel} {ctx : SelectionContext} {e : Engine} {s : Symbol}
  {error : SelectionError}

/-- A fault that comes before the first one is not there. -/
theorem not_fault {other : SelectionError} (h : FirstFault m ctx e s error)
    (hbefore : other.stage < error.stage) : ¬ Fault m ctx e s other :=
  fun hother => absurd (h.first other hother) (Nat.not_le.2 hbefore)

/-- The first fault is what a symbol fails for, if its chain has no security. -/
theorem resolves (h : FirstFault m ctx e s error)
    (hfind : s.kind = .future → e.registry.find? s.toCanonical = none) :
    ∃ after, Resolves m ctx e s (.error error) after := by
  by_cases hkind : s.kind = .future
  · have hnew := hfind hkind
    cases h.applies with
    | kind hother => exact absurd hkind hother
    | hours hhours =>
        exact ⟨e, .unknown _ hkind hnew
          (Facilities.metadata_eq_error_iff.2 (.inl ⟨hhours, rfl⟩))⟩
    | properties hproperties =>
        have hhours : e.facilities.hours.lookup? s.market s.toCanonical s.kind ≠ none :=
          fun hnone => h.not_fault (by simp [SelectionError.stage]) (.hours hnone)
        exact ⟨e, .unknown _ hkind hnew
          (Facilities.metadata_eq_error_iff.2 (.inr ⟨hhours, hproperties, rfl⟩))⟩
    | refused hours properties causes left hdescribed hrefusal =>
        exact ⟨e.countRefusal left, .refused hours properties _ left hkind hnew
          (Facilities.metadata_eq_ok_iff.2 hdescribed)
          (ConstructionService.construct_eq_error_iff.2 (.inl ⟨causes, hrefusal, rfl⟩))⟩
    | lotSize hours properties hdescribed hrefusal hlot =>
        exact ⟨e.countRefusal e.subscriptions, .refused hours properties _ _ hkind hnew
          (Facilities.metadata_eq_ok_iff.2 hdescribed)
          (ConstructionService.construct_eq_error_iff.2 (.inr ⟨hrefusal, hlot, rfl, rfl⟩))⟩
  · have hstage : error.stage ≤ 0 := h.first _ (.kind hkind)
    cases h.applies with
    | kind => exact ⟨e, .invalidKind hkind⟩
    | hours | properties | refused | lotSize => simp [SelectionError.stage] at hstage

end FirstFault

/-- A symbol that cannot be resolved leaves the engine as it was, the count of construction calls
apart, and its error is the first fault. Only a construction service that touches the table of
subscriptions before it refuses a request could leave something behind, and no more than the table
that it left; a service that decides by the request first does not. Where the chain has no security
the first fault is the error. Where it has one, a future of the chain is resolved whatever the
facilities are: neither tables nor construction have a part in it. -/
theorem failed_resolution_changes_nothing (m : SelectionModel) (ctx : SelectionContext) (e : Engine)
    (s : Symbol) :
    (∀ error after, m.resolve ctx e s = .ok (.error error, after) →
      FirstFault m ctx e s error ∧
        (e.facilities.service.LeavesTable ∨ (∀ causes, error ≠ .construction (.refused causes)) →
          after = e.countCalls (if isRefused (.error error) then 1 else 0)) ∧
        ∃ table, after = { e.countCalls (if isRefused (.error error) then 1 else 0) with
          subscriptions := table }) ∧
      (∀ causes?, (ConstructionService.deciding causes?).LeavesTable) ∧
      ((s.kind = .future → e.registry.find? s.toCanonical = none) → ∀ error,
        FirstFault m ctx e s error →
          ∃ after, m.resolve ctx e s = .ok (.error error, after)) ∧
      (s.kind = .future → ∀ id, e.registry.find? s.toCanonical = some id → ∀ facilities,
        m.resolve ctx { e with facilities } s =
          .ok (.ok ⟨s.toCanonical, id, m.settings.getD ctx.defaults.settings,
              m.initializer.getD ctx.defaults.initializer⟩,
            { e with facilities, registry := e.registry.modify id (.attach m.filter) })) := by
  refine ⟨fun error after hresolve => ?_, ConstructionService.deciding_leavesTable,
    fun hfind error hfirst => ?_, fun hkind id hfind f => ?_⟩
  · have hresolves := resolve_iff.1 hresolve
    exact ⟨hresolves.firstFault, hresolves.eq_countCalls.2, hresolves.eq_countCalls.1⟩
  · obtain ⟨after, hresolves⟩ := hfirst.resolves hfind
    exact ⟨after, resolve_iff.2 hresolves⟩
  · exact SelectionModel.resolve_of_registered hkind hfind

/-- Where nothing is known of any instrument and construction is refused, crude oil fails for its
hours and leaves the engine. Once its chain has a security, the same facilities do no harm. Natural
gas, which is refused with its hours and properties known, leaves nothing but the count of the
call. -/
theorem failed_resolution_changes_nothing_oil_and_gas :
    let oil : Symbol := .undated "CL" .future .nymex
    let gas : Symbol := .undated "NG" .future .nymex
    let contract : Symbol := .future "CL" .nymex default
    let m := SelectionModel.ofSelector (⟨60⟩ : Span) (.standing [contract])
    let ctx : SelectionContext := ⟨default, .standard⟩
    let service : ConstructionService := .refusing ["NG"] ["no data"]
    let bare : Facilities :=
      { Facilities.traded (.refusing ["CL"] ["no data"]) with
        hours := .empty
        properties := .empty }
    m.resolve ctx (.start bare default) contract =
        .ok (.error (.metadata (.unknownHours .nymex oil .future)), .start bare default) ∧
      ∃ u mid after last, m.resolve ctx (.start (.traded service) default) contract =
          .ok (.ok u, mid) ∧
        m.resolve ctx { mid with facilities := bare } contract = .ok (.ok u, after) ∧
        after.tally = mid.tally ∧ after.registry.index = mid.registry.index ∧
        m.resolve ctx mid gas = .ok (.error (.construction (.refused ["no data"])), last) ∧
        last.tally = ⟨2, 1⟩ ∧ last.registry = mid.registry ∧
        last.subscriptions = mid.subscriptions := by
  intro oil gas contract m ctx service bare
  have hfirst : FirstFault m ctx (.start bare default) contract
      (.metadata (.unknownHours .nymex oil .future)) := by
    refine ⟨.hours rfl, fun other hother => ?_⟩
    cases hother with
    | kind hkind => exact absurd rfl hkind
    | hours | properties | refused | lotSize => simp [SelectionError.stage]
  obtain ⟨hunchanged, hdeciding, hfails, -⟩ :=
    failed_resolution_changes_nothing m ctx (.start bare default) contract
  obtain ⟨after, hfailed⟩ := hfails (fun _ => rfl) _ hfirst
  obtain ⟨-, hleft, -⟩ := hunchanged _ _ hfailed
  obtain rfl := hleft (.inl (hdeciding _))
  refine ⟨hfailed, ?_⟩
  have hrun : (m.resolve ctx (.start (.traded service) default) contract >>= fun made =>
      (m.resolve ctx made.2 gas).map fun refused =>
        (made.2.tally, made.1.isOk, refused.1.map fun _ => ())) =
      .ok (⟨1, 1⟩, true, .error (.construction (.refused ["no data"]))) := by
    decide +kernel
  rw [Halt.bind_eq_ok] at hrun
  obtain ⟨⟨outcome, mid⟩, hmade, hrun⟩ := hrun
  obtain ⟨⟨refusal, last⟩, hrefused, hresult⟩ := Halt.map_eq_ok.1 hrun
  simp only [Prod.mk.injEq] at hresult
  obtain ⟨htally, hgiven, herror⟩ := hresult
  cases outcome with
  | error error => cases hgiven
  | ok u =>
      cases refusal with
      | ok other => cases herror
      | error error =>
          obtain rfl := Except.error.inj herror
          have hresolves := resolve_iff.1 hmade
          have hfind : mid.registry.find? contract.toCanonical = some u.security := by
            rw [← hresolves.chain_eq]
            exact hresolves.find?_given
          obtain ⟨-, -, -, hreused⟩ := failed_resolution_changes_nothing m ctx mid contract
          have hagain := hreused rfl u.security hfind bare
          have hsame : ChainUniverse.mk contract.toCanonical u.security
              (m.settings.getD ctx.defaults.settings)
              (m.initializer.getD ctx.defaults.initializer) = u := hresolves.universe_eq.symm
          rw [hsame] at hagain
          obtain ⟨hgas, -⟩ := failed_resolution_changes_nothing m ctx mid gas
          have hservice : mid.facilities.service.LeavesTable := by
            rw [hresolves.facilities_eq]
            exact ConstructionService.refusing_leavesTable ["NG"] ["no data"]
          obtain ⟨-, hkept, -⟩ := hgas _ last hrefused
          obtain rfl := hkept (.inl hservice)
          refine ⟨u, mid, _, _, hmade, hagain, rfl, rfl, hrefused, ?_, rfl, rfl⟩
          rw [Engine.countCalls, htally]
          rfl

end FuturesChains
