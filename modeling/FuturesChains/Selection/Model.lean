import FuturesChains.Engine.State

/-!
# Selection models

A selection model asks its selector for symbols of interest once every interval. `stamp` is what
a refresh does before anything else: it sets the next refresh time to the present plus the interval,
or to the last instant if the calendar does not reach that far. Then the selector is asked, and
`ask` notes the call where it is made. A model may bring settings and an initializer of its own in
place of the engine's defaults.
-/

namespace FuturesChains

/-- The symbols of interest at a time. A timetable holds the symbols at first and changes from some
times on; its last entry begun counts. -/
inductive Selector where
  | standing (symbols : List Symbol)
  | timetable (first : List Symbol) (changes : List (Instant × List Symbol))
  | custom (select : Instant → List Symbol)

/-- The symbols of interest at an instant. -/
def Selector.select : Selector → Instant → List Symbol
  | .standing symbols, _ => symbols
  | .timetable first changes, t =>
    changes.foldl (fun symbols change => if change.1 ≤ t then change.2 else symbols) first
  | .custom chosen, t => chosen t

/-- A scheduled source of chain universes. `asked` holds the times at which the selector was asked,
the latest first. -/
structure SelectionModel where
  interval : Duration
  nextRefresh : Instant
  selector : Selector
  settings : Option UniverseSettings
  initializer : Option Initializer
  filter : ContractFilter
  asked : List Instant

namespace SelectionModel

/-- A model whose first refresh is due at once, with the engine's defaults and the identity
filter. -/
def ofSelector (interval : Duration) (selector : Selector) : SelectionModel :=
  { interval, selector
    nextRefresh := .earliest
    settings := none
    initializer := none
    filter := .identity
    asked := [] }

/-- A refresh is due at a time. -/
def isDue (m : SelectionModel) (now : Instant) : Bool := m.nextRefresh ≤ now

/-- The model with its next refresh set for an interval after a time. -/
def stamp (m : SelectionModel) (now : Instant) : SelectionModel :=
  { m with nextRefresh := now.advance m.interval }

/-- Ask the selector for the symbols of interest at a time: the symbols, and the model with the call
noted. -/
def ask (m : SelectionModel) (now : Instant) : List Symbol × SelectionModel :=
  (m.selector.select now, { m with asked := now :: m.asked })

/-- The model after a refresh at a time. -/
def refreshed (m : SelectionModel) (now : Instant) : SelectionModel := ((m.stamp now).ask now).2

/-- A model that has not been refreshed is due at any time. -/
theorem isDue_ofSelector (interval : Duration) (selector : Selector) (now : Instant) :
    (ofSelector interval selector).isDue now = true := by
  simp [isDue, ofSelector, Instant.earliest_le]

end SelectionModel

end FuturesChains
