import Mathlib.Data.Finset.Card
import FuturesChains.Proofs.Selection.Host

/-!
# Refreshes against an eager reference

An eager refresh walks the selected symbols in order, skips those that came before, and resolves the
others one after the other up to the first error. The lazy one is a cursor that is pulled.
`refresh_eq_eager` says that any number of pulls gives as many results of the eager refresh, leaves
the engine that they left, and resolves nothing beyond; pulls after the end give nothing. The
cursor's invariant is that all symbols taken are futures, so that its check of kinds never lets a
repeat through.
-/

namespace FuturesChains

/-- One result of an eager refresh: the symbol, its outcome, and the engine that this left. -/
structure EagerStep where
  symbol : Symbol
  outcome : Except SelectionError ChainUniverse
  engine : Engine

/-- The results of an eager refresh, and the reason for a stop. -/
structure EagerRefresh where
  steps : List EagerStep
  stop : Option Halt

/-- Resolve some symbols, each in the engine that the one before left, up to the first error. -/
def SelectionModel.resolveAll (m : SelectionModel) (ctx : SelectionContext) (e : Engine) :
    List Symbol → EagerRefresh
  | [] => ⟨[], none⟩
  | s :: rest =>
    match m.resolve ctx e s with
    | .error stop => ⟨[], some stop⟩
    | .ok (.error error, e) => ⟨[⟨s, .error error, e⟩], none⟩
    | .ok (.ok u, e) =>
      let later := m.resolveAll ctx e rest
      ⟨⟨s, .ok u, e⟩ :: later.steps, later.stop⟩

/-- The eager refresh over some symbols: one that came before is skipped. -/
def SelectionModel.eager (m : SelectionModel) (ctx : SelectionContext) (e : Engine)
    (symbols : List Symbol) : EagerRefresh :=
  m.resolveAll ctx e symbols.eraseDups

/-- What a pull shows: the symbol, the outcome, and the engine's counts after it. -/
abbrev Shown := Symbol × Except SelectionError ChainUniverse × EngineCounts

/-- What a pull shows. -/
def Pull.shown (p : Pull) : Shown := (p.symbol, p.outcome, p.counts)

/-- What a result of an eager refresh shows. -/
def EagerStep.shown (s : EagerStep) : Shown := (s.symbol, s.outcome, s.engine.counts)

namespace EagerRefresh

/-- The engine that some results left. -/
def engineAfter (e : Engine) (steps : List EagerStep) : Engine :=
  steps.foldl (fun _ s => s.engine) e

/-- The answer to a number of pulls: as many results and the engine that they left. Beyond the
results there is nothing, or the stop. -/
def pulls (r : EagerRefresh) (e : Engine) (count : Nat) :
    Except Halt (List (Option Shown) × Engine) :=
  if count ≤ r.steps.length then
    .ok ((r.steps.take count).map fun s => some s.shown, engineAfter e (r.steps.take count))
  else match r.stop with
    | some stop => .error stop
    | none =>
      .ok ((r.steps.map fun s => some s.shown) ++ List.replicate (count - r.steps.length) none,
        engineAfter e r.steps)

/-- The answer to pulling to the end. -/
def drain (r : EagerRefresh) (e : Engine) : Except Halt (List Shown × Engine) :=
  match r.stop with
  | some stop => .error stop
  | none => .ok (r.steps.map (·.shown), engineAfter e r.steps)

theorem pulls_zero (r : EagerRefresh) (e : Engine) : r.pulls e 0 = .ok ([], e) := by
  simp [pulls, engineAfter]

/-- Nothing but the end. -/
theorem pulls_nil (e : Engine) (count : Nat) :
    (EagerRefresh.mk [] none).pulls e count = .ok (List.replicate count none, e) := by
  cases count with
  | zero => rfl
  | succ count => simp [pulls, engineAfter]

/-- Pulling from results after a first one. -/
theorem pulls_cons (s : EagerStep) (steps : List EagerStep) (stop : Option Halt) (e : Engine)
    (count : Nat) :
    (EagerRefresh.mk (s :: steps) stop).pulls e (count + 1) =
      ((EagerRefresh.mk steps stop).pulls s.engine count).map fun (shown, after) =>
        (some s.shown :: shown, after) := by
  unfold pulls
  by_cases hle : count ≤ steps.length
  · simp [hle, engineAfter, Except.map]
  · cases stop with
    | some stop => simp [hle, Except.map]
    | none => simp [hle, engineAfter, Except.map]

/-- Pulling results to the end after a first one. -/
theorem drain_cons (s : EagerStep) (steps : List EagerStep) (stop : Option Halt) (e : Engine) :
    (EagerRefresh.mk (s :: steps) stop).drain e =
      ((EagerRefresh.mk steps stop).drain s.engine).map fun (shown, after) =>
        (s.shown :: shown, after) := by
  cases stop <;> rfl

/-- Pulling to the end shows every result unless it stops. -/
theorem of_drain {r : EagerRefresh} {e after : Engine} {shown : List Shown}
    (h : r.drain e = .ok (shown, after)) : r.stop = none ∧ r.steps.map (·.shown) = shown := by
  unfold drain at h
  split at h
  · cases h
  · rename_i hstop
    cases h
    exact ⟨hstop, rfl⟩

end EagerRefresh

namespace Refresh

/-- The symbols that a refresh has still to resolve. -/
def toCome (r : Refresh) : List Symbol := (r.pending.filter (· ∉ r.seen)).eraseDups

/-- The cursor stops when all symbols that are left were taken. -/
theorem filter_of_nextSymbol_eq_none {seen pending : List Symbol}
    (h : nextSymbol seen pending = none) : pending.filter (· ∉ seen) = [] := by
  induction pending with
  | nil => rfl
  | cons s rest ih =>
      unfold nextSymbol at h
      split at h
      · rename_i hskip
        simpa [hskip.2] using ih h
      · cases h

/-- As long as all symbols taken are futures, the cursor skips exactly those symbols. -/
theorem filter_of_nextSymbol {seen pending rest : List Symbol} {s : Symbol}
    (hseen : ∀ t ∈ seen, t.kind = .future) (h : nextSymbol seen pending = some (s, rest)) :
    pending.filter (· ∉ seen) = s :: rest.filter (· ∉ seen) := by
  induction pending with
  | nil => cases h
  | cons t behind ih =>
      unfold nextSymbol at h
      split at h
      · rename_i hskip
        simpa [hskip.2] using ih h
      · rename_i hkeep
        cases h
        have hmem : s ∉ seen := fun hmem => hkeep ⟨hseen s hmem, hmem⟩
        simp [hmem]

/-- Before an error all symbols taken are futures, so the check of kinds lets no repeat through. -/
def IsUnderWay (r : Refresh) : Prop := r.done = false ∧ ∀ s ∈ r.seen, s.kind = .future

theorem next_of_done {r : Refresh} (hdone : r.done = true) (e : Engine) :
    r.next e = .ok (none, e) := by
  simp [next, hdone]

/-- Without symbols to come a pull gives nothing. -/
theorem next_of_toCome_eq_nil {r : Refresh} (hway : r.IsUnderWay) (hnil : r.toCome = [])
    (e : Engine) : r.next e = .ok (none, e) := by
  cases hnext : nextSymbol r.seen r.pending with
  | none => simp [next, hway.1, hnext]
  | some found =>
      rw [toCome, filter_of_nextSymbol hway.2 hnext, List.eraseDups_cons] at hnil
      cases hnil

/-- A refresh with symbols to come has the first of them next, and the others are to come once it
is taken. -/
theorem nextSymbol_of_toCome_eq_cons {r : Refresh} (hway : r.IsUnderWay) {s : Symbol}
    {rest : List Symbol} (hcons : r.toCome = s :: rest) :
    ∃ behind, nextSymbol r.seen r.pending = some (s, behind) ∧
      (behind.filter (· ∉ s :: r.seen)).eraseDups = rest := by
  cases hnext : nextSymbol r.seen r.pending with
  | none =>
      rw [toCome, filter_of_nextSymbol_eq_none hnext] at hcons
      cases hcons
  | some found =>
      obtain ⟨t, behind⟩ := found
      rw [toCome, filter_of_nextSymbol hway.2 hnext, List.eraseDups_cons, List.cons.injEq] at hcons
      obtain ⟨rfl, hrest⟩ := hcons
      refine ⟨behind, rfl, ?_⟩
      rw [← hrest, List.filter_filter]
      congr 1
      apply List.filter_congr
      intro u _
      by_cases h : u = t <;> simp [h]

/-- A pull stops where the resolution of the first symbol to come does. -/
theorem next_of_resolve_error {r : Refresh} {e : Engine} {s : Symbol} {rest : List Symbol}
    {stop : Halt} (hway : r.IsUnderWay) (hcons : r.toCome = s :: rest)
    (hresolve : r.model.resolve r.context e s = .error stop) : r.next e = .error stop := by
  obtain ⟨behind, hnext, -⟩ := nextSymbol_of_toCome_eq_cons hway hcons
  simp [next, hway.1, hnext, hresolve, bind, Except.bind]

/-- A pull resolves the first symbol to come. The others remain to come after a universe, and an
error ends the refresh. -/
theorem next_of_resolve {r : Refresh} {e after : Engine} {s : Symbol} {rest : List Symbol}
    {outcome : Except SelectionError ChainUniverse} (hway : r.IsUnderWay)
    (hcons : r.toCome = s :: rest)
    (hresolve : r.model.resolve r.context e s = .ok (outcome, after)) :
    ∃ p r', r.next e = .ok (some (p, r'), after) ∧ p.shown = (s, outcome, after.counts) ∧
      r'.model = r.model ∧ r'.context = r.context ∧
      (∀ error, outcome = .error error → r'.done = true) ∧
      (∀ u, outcome = .ok u → r'.IsUnderWay ∧ r'.toCome = rest) := by
  obtain ⟨behind, hnext, hrest⟩ := nextSymbol_of_toCome_eq_cons hway hcons
  let isNew := s.kind = .future && (e.registry.find? s.toCanonical).isNone
  let p : Pull := ⟨s, isNew, outcome, after.counts⟩
  refine ⟨p, r.taking p behind, ?_, rfl, rfl, rfl, ?_, ?_⟩
  · simp only [next, hway.1, hnext, hresolve]
    rfl
  · rintro error rfl
    rfl
  · rintro u rfl
    -- only a future gives a universe, so a repeat of this symbol will be skipped
    have hkind : s.kind = .future := by
      by_contra hkind
      rw [SelectionModel.resolve_of_kind_ne hkind] at hresolve
      cases hresolve
    refine ⟨⟨rfl, ?_⟩, hrest⟩
    intro t ht
    rcases List.mem_cons.1 ht with rfl | ht
    · exact hkind
    · exact hway.2 t ht

/-- A refresh that has nothing to give leaves the engine, and it gives nothing in any engine. -/
theorem next_eq_none {r : Refresh} {e after : Engine} (h : r.next e = .ok (none, after)) :
    after = e ∧ ∀ other, r.next other = .ok (none, other) := by
  obtain ⟨hafter, hdone | hnext⟩ := next_eq_ok h
  · exact ⟨hafter, next_of_done hdone⟩
  · refine ⟨hafter, fun other => ?_⟩
    unfold next
    split
    · rfl
    · rw [hnext]

/-- A refresh is over after an error. -/
theorem next_of_next_error {r r' : Refresh} {e after : Engine} {p : Pull}
    (h : r.next e = .ok (some (p, r'), after)) (herror : p.isUniverse = false) (other : Engine) :
    r'.next other = .ok (none, other) := by
  obtain ⟨-, behind, -, -, rfl⟩ := next_eq_ok h
  apply next_of_done
  simp [taking, herror]

/-- A refresh that is over gives nothing to any number of pulls and leaves the engine. -/
theorem pulls_of_next_none {r : Refresh} {e : Engine} (h : r.next e = .ok (none, e))
    (count : Nat) : r.pulls e count = .ok (List.replicate count none, e) := by
  induction count with
  | zero => rfl
  | succ count ih =>
      simp only [pulls, h, ih, bind, Except.bind, Except.map, List.replicate_succ]

/-- What some pulls show, with the engine after them. -/
def shownPulls (result : List (Option Pull) × Engine) : List (Option Shown) × Engine :=
  (result.1.map (Option.map Pull.shown), result.2)

/-- The pulls of a refresh under way, by induction on their number. -/
theorem pulls_shown {r : Refresh} (hway : r.IsUnderWay) (e : Engine) (count : Nat) :
    (r.pulls e count).map shownPulls =
      (r.model.resolveAll r.context e r.toCome).pulls e count := by
  induction count generalizing r e with
  | zero =>
      rw [EagerRefresh.pulls_zero]
      rfl
  | succ count ih =>
      cases hcome : r.toCome with
      | nil =>
          rw [pulls_of_next_none (next_of_toCome_eq_nil hway hcome e)]
          rw [SelectionModel.resolveAll, EagerRefresh.pulls_nil]
          simp [Except.map, shownPulls]
      | cons s rest =>
          unfold SelectionModel.resolveAll
          cases hresolve : r.model.resolve r.context e s with
          | error stop =>
              simp [pulls, next_of_resolve_error hway hcome hresolve, bind, Except.bind, Except.map,
                EagerRefresh.pulls]
          | ok result =>
              obtain ⟨outcome, after⟩ := result
              obtain ⟨p, r', hnext, hshown, hmodel, hcontext, herror, hok⟩ :=
                next_of_resolve hway hcome hresolve
              have hpulls : (r.pulls e (count + 1)).map shownPulls =
                  ((r'.pulls after count).map shownPulls).map fun (shown, last) =>
                    (some p.shown :: shown, last) := by
                simp only [pulls, hnext, bind, Except.bind]
                cases r'.pulls after count <;> rfl
              rw [hpulls, hshown]
              cases outcome with
              | error error =>
                  rw [pulls_of_next_none (next_of_done (herror error rfl) after)]
                  rw [EagerRefresh.pulls_cons, EagerRefresh.pulls_nil]
                  simp [Except.map, shownPulls, EagerStep.shown]
              | ok u =>
                  obtain ⟨hway', hcome'⟩ := hok u rfl
                  rw [ih hway' after, hcome', hmodel, hcontext]
                  exact (EagerRefresh.pulls_cons ⟨s, .ok u, after⟩ _ _ e count).symm

/-- What some pulls to the end show, with the engine after them. -/
def shownAll (result : List Pull × Engine) : List Shown × Engine :=
  (result.1.map Pull.shown, result.2)

/-- A refresh under way that is pulled to its end, by induction on the symbols to come. -/
theorem drain_shown {r : Refresh} (hway : r.IsUnderWay) (e : Engine) :
    (r.drain e).map shownAll = (r.model.resolveAll r.context e r.toCome).drain e := by
  generalize hcome : r.toCome = symbols
  induction symbols generalizing r e with
  | nil =>
      rw [drain_eq, next_of_toCome_eq_nil hway hcome e]
      rfl
  | cons s rest ih =>
      unfold SelectionModel.resolveAll
      cases hresolve : r.model.resolve r.context e s with
      | error stop =>
          rw [drain_eq, next_of_resolve_error hway hcome hresolve]
          rfl
      | ok result =>
          obtain ⟨outcome, after⟩ := result
          obtain ⟨p, r', hnext, hshown, hmodel, hcontext, herror, hok⟩ :=
            next_of_resolve hway hcome hresolve
          have hdrain : (r.drain e).map shownAll =
              ((r'.drain after).map shownAll).map fun (shown, last) =>
                (p.shown :: shown, last) := by
            rw [drain_eq, hnext]
            simp only [bind, Except.bind]
            cases r'.drain after <;> rfl
          rw [hdrain, hshown]
          cases outcome with
          | error error =>
              rw [drain_eq, next_of_done (herror error rfl) after]
              rfl
          | ok u =>
              obtain ⟨hway', hcome'⟩ := hok u rfl
              rw [ih hway' after hcome', hmodel, hcontext]
              exact (EagerRefresh.drain_cons ⟨s, .ok u, after⟩ _ _ e).symm

/-- The refresh that a model begins is under way, with every selected symbol to come once. -/
theorem isUnderWay_refresh (m : SelectionModel) (ctx : SelectionContext) :
    (m.refresh ctx).1.IsUnderWay :=
  ⟨rfl, by simp [SelectionModel.refresh]⟩

theorem toCome_refresh (m : SelectionModel) (ctx : SelectionContext) :
    (m.refresh ctx).1.toCome = (m.selector.select ctx.time).eraseDups := by
  simp [toCome, SelectionModel.refresh, SelectionModel.ask, SelectionModel.stamp]

end Refresh

namespace SelectionModel

/-- When a model was refreshed and is to be refreshed next plays no part in resolution. -/
theorem resolveAll_schedule (m : SelectionModel) (nextRefresh : Instant) (asked : List Instant)
    (ctx : SelectionContext) (e : Engine) (symbols : List Symbol) :
    ({ m with nextRefresh, asked } : SelectionModel).resolveAll ctx e symbols =
      m.resolveAll ctx e symbols := by
  induction symbols generalizing e with
  | nil => rfl
  | cons s rest ih =>
      have hfirst : ({ m with nextRefresh, asked } : SelectionModel).resolve ctx e s =
          m.resolve ctx e s := rfl
      unfold resolveAll
      rw [hfirst]
      simp only [ih]

/-- Without a failure every symbol has its result. -/
theorem symbols_resolveAll (m : SelectionModel) (ctx : SelectionContext) (e : Engine)
    (symbols : List Symbol) (hstop : (m.resolveAll ctx e symbols).stop = none)
    (hok : ∀ step ∈ (m.resolveAll ctx e symbols).steps, ∃ u, step.outcome = .ok u) :
    (m.resolveAll ctx e symbols).steps.map (·.symbol) = symbols := by
  induction symbols generalizing e with
  | nil => rfl
  | cons s rest ih =>
      unfold resolveAll at hstop hok ⊢
      cases hresolve : m.resolve ctx e s with
      | error stop => simp [hresolve] at hstop
      | ok result =>
          obtain ⟨outcome, after⟩ := result
          cases outcome with
          | error error => simp [hresolve] at hok
          | ok u =>
              simp only [hresolve] at hstop hok ⊢
              rw [List.map_cons, ih after hstop fun step hstep => hok step (by simp [hstep])]

/-- Skipping repeats leaves every symbol once. -/
theorem nodup_eraseDups (symbols : List Symbol) : symbols.eraseDups.Nodup := by
  induction hlength : symbols.length using Nat.strong_induction_on generalizing symbols with
  | _ length ih =>
      cases symbols with
      | nil => exact List.nodup_nil
      | cons s rest =>
          rw [List.eraseDups_cons, List.nodup_cons]
          refine ⟨by simp [List.mem_eraseDups], ih _ ?_ _ rfl⟩
          rw [← hlength, List.length_cons]
          exact Nat.lt_succ_of_le (List.length_filter_le ..)

/-- There are as many symbols without the repeats as distinct ones. -/
theorem length_eraseDups (symbols : List Symbol) :
    symbols.eraseDups.length = symbols.toFinset.card := by
  rw [← List.toFinset_card_of_nodup (nodup_eraseDups symbols)]
  congr 1
  ext s
  simp [List.mem_eraseDups]

/-- The symbols to come when a model begins a refresh give the results of the eager refresh. -/
theorem resolveAll_refresh (m : SelectionModel) (ctx : SelectionContext) (e : Engine) :
    (m.refresh ctx).1.model.resolveAll (m.refresh ctx).1.context e (m.refresh ctx).1.toCome =
      m.eager ctx e (m.selector.select ctx.time) := by
  rw [Refresh.toCome_refresh]
  exact resolveAll_schedule m _ _ ctx e _

/-- A refresh that is pulled to its end shows what the eager refresh over the selected symbols
shows, and leaves the same engine. -/
theorem drain_refresh (m : SelectionModel) (ctx : SelectionContext) (e : Engine) :
    ((m.refresh ctx).1.drain e).map Refresh.shownAll =
      (m.eager ctx e (m.selector.select ctx.time)).drain e := by
  rw [Refresh.drain_shown (Refresh.isUnderWay_refresh m ctx), resolveAll_refresh]

/-- A refresh gives to any number of pulls what the eager refresh over the selected symbols gives,
and it leaves the engine that the results given so far left. So does a refresh that is pulled to its
end. After an error or the end of the symbols further pulls give nothing and change nothing. Without
an error there is one universe for each distinct symbol, in the order of first occurrence. -/
theorem refresh_eq_eager (m : SelectionModel) (ctx : SelectionContext) (e : Engine) :
    (∀ count, ((m.refresh ctx).1.pulls e count).map Refresh.shownPulls =
        (m.eager ctx e (m.selector.select ctx.time)).pulls e count) ∧
      ((m.refresh ctx).1.drain e).map Refresh.shownAll =
        (m.eager ctx e (m.selector.select ctx.time)).drain e ∧
      (∀ (r : Refresh) (before after : Engine), r.next before = .ok (none, after) →
        after = before ∧ ∀ other, r.next other = .ok (none, other)) ∧
      (∀ (r r' : Refresh) (before after : Engine) (p : Pull),
        r.next before = .ok (some (p, r'), after) → p.isUniverse = false →
          ∀ other, r'.next other = .ok (none, other)) ∧
      (∀ pulls after, (m.refresh ctx).1.drain e = .ok (pulls, after) →
        (∀ p ∈ pulls, p.isUniverse = true) →
          pulls.map (·.symbol) = (m.selector.select ctx.time).eraseDups ∧
          pulls.length = (m.selector.select ctx.time).toFinset.card) := by
  have hdrain := drain_refresh m ctx e
  refine ⟨fun count => ?_, hdrain, fun r before after => Refresh.next_eq_none,
    fun r r' before after p => Refresh.next_of_next_error, ?_⟩
  · rw [Refresh.pulls_shown (Refresh.isUnderWay_refresh m ctx), resolveAll_refresh]
  · intro pulls after hpulls huniverses
    rw [hpulls] at hdrain
    obtain ⟨hstop, hshown⟩ := EagerRefresh.of_drain hdrain.symm
    have hok : ∀ step ∈ (m.eager ctx e (m.selector.select ctx.time)).steps,
        ∃ u, step.outcome = .ok u := by
      intro step hstep
      have hmem : step.shown ∈ pulls.map Pull.shown := hshown ▸ List.mem_map_of_mem hstep
      obtain ⟨p, hp, heq⟩ := List.mem_map.1 hmem
      have hp := huniverses p hp
      rw [show step.outcome = p.outcome from congrArg (·.2.1) heq.symm]
      unfold Pull.isUniverse at hp
      split at hp
      · exact ⟨_, by assumption⟩
      · cases hp
    have hsymbols : pulls.map (·.symbol) = (m.selector.select ctx.time).eraseDups := by
      rw [← symbols_resolveAll m ctx e _ hstop hok]
      have hmap := congrArg (List.map (·.1)) hshown
      simpa [eager, List.map_map, Function.comp_def, Pull.shown, EagerStep.shown] using hmap.symm
    refine ⟨hsymbols, ?_⟩
    rw [← length_eraseDups, ← hsymbols, List.length_map]

/-- Six symbols with three distinct ones give three universes. Where crude oil is refused, the
refresh is over after the first pull. -/
theorem refresh_eq_eager_oil_and_gas :
    let oil : Symbol := .undated "CL" .future .nymex
    let december : Symbol := .future "CL" .nymex default
    let gas : Symbol := .undated "NG" .future .nymex
    let m := SelectionModel.ofSelector (⟨60⟩ : Span)
      (.standing [december, oil, oil, december, gas, oil])
    let r := (m.refresh ⟨default, .standard⟩).1
    (∃ pulls after, r.drain (.start (.traded .standard) default) = .ok (pulls, after) ∧
        pulls.map (·.symbol) = [december, oil, gas] ∧ pulls.length = 3) ∧
      ∃ p r' after, r.next (.start (.traded (.refusing ["CL"] ["no data"])) default) =
        .ok (some (p, r'), after) ∧ p.isUniverse = false ∧
        r'.next after = .ok (none, after) ∧ ∀ other, r'.next other = .ok (none, other) := by
  intro oil december gas m r
  have hdrain : (r.drain (.start (.traded .standard) default)).map (fun result =>
      result.1.map (·.isUniverse)) = .ok [true, true, true] := by
    decide +kernel
  have hnext : (r.next (.start (.traded (.refusing ["CL"] ["no data"])) default)).map
      (fun result => result.1.map (·.1.isUniverse)) = .ok (some false) := by
    decide +kernel
  rw [Halt.map_eq_ok] at hdrain hnext
  obtain ⟨⟨pulls, after⟩, hdrain, huniverses⟩ := hdrain
  obtain ⟨⟨found, after'⟩, hnext, hfound⟩ := hnext
  constructor
  · obtain ⟨-, -, -, -, hall⟩ := refresh_eq_eager m ⟨default, .standard⟩
      (.start (.traded .standard) default)
    obtain ⟨hsymbols, hlength⟩ := hall pulls after hdrain (by
      intro p hp
      have hmem := List.mem_map_of_mem (f := (·.isUniverse)) hp
      simpa [huniverses] using hmem)
    refine ⟨pulls, after, hdrain, hsymbols.trans (by decide +kernel), hlength.trans ?_⟩
    decide +kernel
  · cases found with
    | none => cases hfound
    | some found =>
        obtain ⟨p, r'⟩ := found
        have herror : p.isUniverse = false := Option.some.inj hfound
        obtain ⟨-, -, hover, hfailed, -⟩ := refresh_eq_eager m ⟨default, .standard⟩
          (.start (.traded .standard) default)
        have hnone := hfailed r r' _ after' p hnext herror
        exact ⟨p, r', after', hnext, herror, hnone after', (hover r' _ _ (hnone after')).2⟩

end SelectionModel

end FuturesChains
