import FuturesChains.Engine.Security

/-!
# The security registry

The registry keeps every security that was ever registered in a numbered cell. The cell's number is
the identity of the security: whoever holds it sees every later change. An index leads from symbols
to the cells of those registered now. A symbol that is registered is never replaced. Every
registration and removal is written to a journal, which readers follow at their own pace; a reader
that falls more than 256 events behind loses the oldest ones and is told how many.
-/

namespace FuturesChains

/-- The identity of a registered security: the number of its cell. -/
structure SecurityId where
  cell : Nat
  deriving DecidableEq, Repr

/-- A change of the registered symbols. -/
inductive RegistryEvent where
  | added (symbol : Symbol)
  | removed (symbol : Symbol)
  deriving DecidableEq

/-- The registered securities, and all those that were. -/
structure Registry where
  cells : List Security
  index : List (Symbol × SecurityId)
  journal : List RegistryEvent

namespace Registry

/-- The registry without securities. -/
def empty : Registry := ⟨[], [], []⟩

/-- The security registered under exactly this symbol. -/
def find? (r : Registry) (symbol : Symbol) : Option SecurityId :=
  (r.index.find? (·.1 = symbol)).map (·.2)

/-- The security in a cell. -/
def security? (r : Registry) (id : SecurityId) : Option Security := r.cells[id.cell]?

/-- Register a security unless its symbol is registered; the answer is the one that is. -/
def insert (r : Registry) (security : Security) : SecurityId × Registry :=
  match r.find? security.symbol with
  | some id => (id, r)
  | none =>
    let id : SecurityId := ⟨r.cells.length⟩
    (id,
      { cells := r.cells ++ [security]
        index := r.index ++ [(security.symbol, id)]
        journal := r.journal ++ [.added security.symbol] })

/-- Take a symbol off the index; the cell stays for those who hold it. -/
def remove (r : Registry) (symbol : Symbol) : Option SecurityId × Registry :=
  match r.find? symbol with
  | none => (none, r)
  | some id =>
    (some id,
      { r with
        index := r.index.filter (·.1 ≠ symbol)
        journal := r.journal ++ [.removed symbol] })

/-- Change the security in a cell. -/
def modify (r : Registry) (id : SecurityId) (f : Security → Security) : Registry :=
  { r with cells := r.cells.modify id.cell f }

/-- The number of registered securities. -/
def size (r : Registry) : Nat := r.index.length

/-- The registered symbols in their order. -/
def symbols (r : Registry) : List Symbol := (r.index.map (·.1)).mergeSort Symbol.atMost

/-- Registering a symbol that is registered changes nothing. -/
theorem insert_of_find? {r : Registry} {security : Security} {id : SecurityId}
    (h : r.find? security.symbol = some id) : r.insert security = (id, r) := by
  simp [insert, h]

/-- The answer of an insertion is what the symbol leads to afterwards. -/
theorem find?_insert (r : Registry) (security : Security) :
    (r.insert security).2.find? security.symbol = some (r.insert security).1 := by
  unfold insert
  split
  · assumption
  · rename_i h
    have hnone : r.index.find? (·.1 = security.symbol) = none := by
      simpa [find?] using h
    simp [find?, List.find?_append, hnone]

/-- An insertion leaves every other symbol as it was. -/
theorem find?_insert_of_ne {r : Registry} {security : Security} {symbol : Symbol}
    (h : symbol ≠ security.symbol) : (r.insert security).2.find? symbol = r.find? symbol := by
  unfold insert
  split
  · rfl
  · simp [find?, List.find?_append, Ne.symm h]

/-- A change of one cell leaves every other cell as it was. -/
theorem security?_modify_of_ne {r : Registry} {id other : SecurityId} {f : Security → Security}
    (h : other ≠ id) : (r.modify id f).security? other = r.security? other := by
  have hcell : id.cell ≠ other.cell := fun heq => h (by cases id; cases other; simp_all)
  simp [security?, modify, hcell]

/-- A change of a cell is seen there. -/
theorem security?_modify_self (r : Registry) (id : SecurityId) (f : Security → Security) :
    (r.modify id f).security? id = (r.security? id).map f := by
  simp [security?, modify]

end Registry

/-- What a reader of the journal is given. -/
inductive Delivery where
  | event (event : RegistryEvent)
  | lagged (count : Nat)
  deriving DecidableEq

/-- A reader of the journal: how many of its events it has passed. -/
structure EventReader where
  passed : Nat

namespace EventReader

/-- The number of events that are kept for a reader. -/
def capacity : Nat := 256

/-- A reader of the events from now on. -/
def atEnd (r : Registry) : EventReader := ⟨r.journal.length⟩

/-- Everything the reader has not seen: the number of events it lost, if any, and those still
kept. -/
def drain (reader : EventReader) (r : Registry) : List Delivery × EventReader :=
  let pending := r.journal.drop reader.passed
  let lost := pending.length - capacity
  let events := (pending.drop lost).map .event
  (if lost = 0 then events else .lagged lost :: events, atEnd r)

end EventReader

end FuturesChains
