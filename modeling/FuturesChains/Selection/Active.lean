import FuturesChains.Selection.Chain

/-!
# Active universes

The chain universes in force, in the order of their chains, each with the contracts that are
selected for it. A universe that comes again for the same chain takes the place of the old one and
keeps the selection. Running a selection gives the change of the selected contracts; a selection
that is undecided changes nothing.
-/

namespace FuturesChains

/-- The contracts that came in and those that went out in a selection, each in ascending order. -/
structure SelectionDiff where
  added : List Symbol
  removed : List Symbol
  deriving DecidableEq

namespace SelectionDiff

/-- No change. -/
def none : SelectionDiff := ⟨[], []⟩

/-- Nothing came in and nothing went out. -/
def isEmpty (d : SelectionDiff) : Bool := d.added.isEmpty && d.removed.isEmpty

/-- The change between two selections in ascending order. -/
def between (before after : List Symbol) : SelectionDiff :=
  ⟨after.filter (!before.contains ·), before.filter (!after.contains ·)⟩

end SelectionDiff

/-- A universe in force and its selected contracts in ascending order. -/
structure ActiveChain where
  current : ChainUniverse
  selected : List Symbol

namespace ActiveChain

/-- The chain. -/
def chain (a : ActiveChain) : Symbol := a.current.chain

/-- Run the selection over the contracts that are available. -/
def run (a : ActiveChain) (r : Registry) (now : Instant) (available : List Symbol) :
    Except Halt (SelectionDiff × ActiveChain) := do
  match ← a.current.select r now available with
  | none => return (.none, a)
  | some contracts =>
    let next := Symbol.ascending contracts
    return (.between a.selected next, { a with selected := next })

end ActiveChain

/-- The universes in force, in ascending order of their chains. -/
structure ActiveUniverses where
  chains : List ActiveChain

namespace ActiveUniverses

/-- No universe is in force. -/
def empty : ActiveUniverses := ⟨[]⟩

/-- The entry of a chain. -/
def find? (a : ActiveUniverses) (chain : Symbol) : Option ActiveChain :=
  a.chains.find? (·.chain = chain)

/-- The chain is active. -/
def contains (a : ActiveUniverses) (chain : Symbol) : Bool := (a.find? chain).isSome

/-- The contracts selected for a chain, in ascending order. -/
def selected (a : ActiveUniverses) (chain : Symbol) : List Symbol :=
  match a.find? chain with
  | some entry => entry.selected
  | none => []

/-- The number of active chains. -/
def size (a : ActiveUniverses) : Nat := a.chains.length

/-- Put an entry before the first one whose chain comes after its own. -/
def insertChain (entry : ActiveChain) : List ActiveChain → List ActiveChain
  | [] => [entry]
  | other :: rest =>
    if entry.chain.compare other.chain = .lt then entry :: other :: rest
    else other :: insertChain entry rest

/-- Put a universe in force; the answer says whether its chain was not active before. -/
def add (a : ActiveUniverses) (u : ChainUniverse) : Bool × ActiveUniverses :=
  -- a chain that is active keeps its selection under the new universe
  if a.contains u.chain then
    (false, ⟨a.chains.map fun entry =>
      if entry.chain = u.chain then { entry with current := u } else entry⟩)
  else (true, ⟨insertChain ⟨u, []⟩ a.chains⟩)

/-- Put an entry in the place of the one of its chain. -/
def replace (a : ActiveUniverses) (entry : ActiveChain) : ActiveUniverses :=
  ⟨a.chains.map fun other => if other.chain = entry.chain then entry else other⟩

/-- Run the selection of a chain; there is no change to report for a chain that is not active. -/
def run (a : ActiveUniverses) (r : Registry) (chain : Symbol) (now : Instant)
    (available : List Symbol) : Except Halt (Option SelectionDiff × ActiveUniverses) :=
  match a.find? chain with
  | none => .ok (none, a)
  | some entry => do
    let (diff, entry) ← entry.run r now available
    return (some diff, a.replace entry)

end ActiveUniverses

end FuturesChains
