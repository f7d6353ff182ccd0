import FuturesChains.Selection.Active
import FuturesChains.Selection.Refresh

/-!
# The selection manager

The manager drives selection models on the engine's clock. A step refreshes every model that is due,
in order, and puts the universes that come out in force; a refresh that fails keeps what it gave
before the failure and is not tried again before its next interval. Between steps the contracts that
are listed for a chain are fed to its universe.
-/

namespace FuturesChains

/-- What one refresh did: the model's number, what was pulled, with a mark on the universes of
chains that were not active before, and when the next refresh is due. -/
structure RefreshReport where
  model : Nat
  pulls : List (Pull × Bool)
  nextRefresh : Instant

/-- The number of universes that a refresh gave. -/
def RefreshReport.emitted (r : RefreshReport) : Nat := r.pulls.countP (·.1.isUniverse)

/-- The models and the universes in force. -/
structure SelectionManager where
  models : List SelectionModel
  universes : ActiveUniverses

namespace SelectionManager

/-- A manager without models. -/
def empty : SelectionManager := ⟨[], .empty⟩

/-- Add a model behind the others. -/
def addModel (m : SelectionManager) (model : SelectionModel) : SelectionManager :=
  { m with models := m.models ++ [model] }

/-- Put the universes among some pulls in force, in order. -/
def activate (universes : ActiveUniverses) : List Pull → List (Pull × Bool) × ActiveUniverses
  | [] => ([], universes)
  | p :: rest =>
    let (isNew, universes) := match p.outcome with
      | .ok u => universes.add u
      | .error _ => (false, universes)
    let (marked, universes) := activate universes rest
    ((p, isNew) :: marked, universes)

/-- Refresh a model that is due. -/
def refreshModel (number : Nat) (model : SelectionModel) (now : Instant)
    (universes : ActiveUniverses) (e : Engine) :
    Except Halt (RefreshReport × SelectionModel × ActiveUniverses × Engine) := do
  let (refresh, model) := model.refresh (e.contextAt now)
  let (pulls, e) ← refresh.drain e
  let (marked, universes) := activate universes pulls
  return (⟨number, marked, model.nextRefresh⟩, model, universes, e)

/-- Refresh the models that are due, from one model number on. -/
def stepModels (now : Instant) (number : Nat) (universes : ActiveUniverses) (e : Engine) :
    List SelectionModel →
      Except Halt (List RefreshReport × List SelectionModel × ActiveUniverses × Engine)
  | [] => .ok ([], [], universes, e)
  | model :: rest =>
    if model.isDue now then do
      let (report, model, universes, e) ← refreshModel number model now universes e
      let (reports, rest, universes, e) ← stepModels now (number + 1) universes e rest
      return (report :: reports, model :: rest, universes, e)
    -- a model that is not due is left exactly as it is
    else do
      let (reports, rest, universes, e) ← stepModels now (number + 1) universes e rest
      return (reports, model :: rest, universes, e)

/-- Refresh every model that is due at the engine's time. -/
def step (m : SelectionManager) (e : Engine) :
    Except Halt (List RefreshReport × SelectionManager × Engine) := do
  let (reports, models, universes, e) ← stepModels e.clock 0 m.universes e m.models
  return (reports, ⟨models, universes⟩, e)

/-- The number of universes that a step gave. -/
def emitted (reports : List RefreshReport) : Nat :=
  reports.foldl (fun total report => total + report.emitted) 0

/-- Feed the listed contracts of a chain to its universe at the engine's time. -/
def onChainContracts (m : SelectionManager) (e : Engine) (chain : Symbol)
    (contracts : List Symbol) : Except Halt (Option SelectionDiff × SelectionManager) := do
  let (diff, universes) ← m.universes.run e.registry chain e.clock contracts
  return (diff, { m with universes })

end SelectionManager

end FuturesChains
