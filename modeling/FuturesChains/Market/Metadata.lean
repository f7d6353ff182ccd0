import FuturesChains.Instrument.Symbol
import FuturesChains.Market.Hours

/-!
# Metadata tables

Facts about instruments, kept by market, kind and root. An entry without a root is the wildcard of
its market and kind. A look-up takes the entry of the symbol's root, in any ASCII case, and falls
back on the wildcard; the symbol's own market and kind play no part. The main statements are
`find?_insert_self` and `find?_insert_of_ne`: the last entry that is inserted for a key is the one
that is found, and it shadows no other key.
-/

namespace FuturesChains

/-- What an entry is kept under; no root stands for the wildcard. -/
structure MetadataKey where
  market : Exchange
  root : Option String
  kind : Kind
  deriving DecidableEq

namespace MetadataKey

/-- The key of an entry; roots are kept in upper case. -/
def ofRoot (market : Exchange) (root : Option String) (kind : Kind) : MetadataKey :=
  ⟨market, root.map Text.upper, kind⟩

/-- The key of a symbol's own entry on a market. -/
def ofSymbol (market : Exchange) (s : Symbol) (kind : Kind) : MetadataKey :=
  ofRoot market (some s.id) kind

/-- The wildcard of a key's market and kind. -/
def wildcard (k : MetadataKey) : MetadataKey := { k with root := none }

end MetadataKey

/-- Entries by key, one for each key. -/
structure MetadataTable (α : Type) where
  entries : List (MetadataKey × α)

namespace MetadataTable

variable {α : Type}

/-- The table without entries. -/
def empty : MetadataTable α := ⟨[]⟩

/-- The entry under a key. -/
def find? (t : MetadataTable α) (key : MetadataKey) : Option α :=
  (t.entries.find? (·.1 = key)).map (·.2)

/-- Put an entry under a key, in place of the one that was there. -/
def put (t : MetadataTable α) (key : MetadataKey) (entry : α) : MetadataTable α :=
  ⟨(key, entry) :: t.entries.filter (·.1 ≠ key)⟩

/-- Register an entry for a root, or for all roots of a market and kind. -/
def insert (t : MetadataTable α) (market : Exchange) (root : Option String) (kind : Kind)
    (entry : α) : MetadataTable α :=
  t.put (.ofRoot market root kind) entry

/-- The entry of a symbol on a market: its own, or the wildcard's. -/
def lookup? (t : MetadataTable α) (market : Exchange) (s : Symbol) (kind : Kind) : Option α :=
  let key := MetadataKey.ofSymbol market s kind
  (t.find? key).or (t.find? key.wildcard)

/-- The number of keys. -/
def size (t : MetadataTable α) : Nat := t.entries.length

/-- The table has no entries. -/
def isEmpty (t : MetadataTable α) : Bool := t.entries.isEmpty

theorem find?_put_self (t : MetadataTable α) (key : MetadataKey) (entry : α) :
    (t.put key entry).find? key = some entry := by
  simp [put, find?]

theorem find?_put_of_ne (t : MetadataTable α) {key other : MetadataKey} (entry : α)
    (h : other ≠ key) : (t.put key entry).find? other = t.find? other := by
  have hfilter : ∀ entries : List (MetadataKey × α),
      (entries.filter (·.1 ≠ key)).find? (·.1 = other) = entries.find? (·.1 = other) := by
    intro entries
    induction entries with
    | nil => rfl
    | cons e rest ih =>
      by_cases he : e.1 = key
      · have hne : ¬ e.1 = other := fun h' => h (h' ▸ he)
        simp only [ne_eq, he, not_true_eq_false, decide_false, Bool.false_eq_true,
          not_false_eq_true, List.filter_cons_of_neg] at ih ⊢
        rw [ih, List.find?_cons_of_neg (by simpa [he] using hne)]
      · simp only [ne_eq, he, not_false_eq_true, decide_true, List.filter_cons_of_pos] at ih ⊢
        by_cases ho : e.1 = other
        · simp [ho]
        · simp only [List.find?_cons, ho, decide_false]
          exact ih
  unfold put find?
  simp only [List.find?_cons, Ne.symm h, decide_false]
  rw [hfilter]

/-- The last entry inserted for a root is the one that is found for it. -/
theorem find?_insert_self (t : MetadataTable α) (market : Exchange) (root : Option String)
    (kind : Kind) (entry : α) :
    (t.insert market root kind entry).find? (.ofRoot market root kind) = some entry :=
  find?_put_self t _ entry

/-- An insertion leaves every other key as it was. -/
theorem find?_insert_of_ne (t : MetadataTable α) {market : Exchange} {root : Option String}
    {kind : Kind} {key : MetadataKey} (entry : α) (h : key ≠ .ofRoot market root kind) :
    (t.insert market root kind entry).find? key = t.find? key :=
  find?_put_of_ne t entry h

end MetadataTable

/-- A look-up without an entry: what was missing, and for which symbol, market and kind. -/
inductive MetadataError where
  | unknownHours (market : Exchange) (symbol : Symbol) (kind : Kind)
  | unknownProperties (market : Exchange) (symbol : Symbol) (kind : Kind)
  deriving DecidableEq

/-- The wording of a failed look-up. -/
def MetadataError.message : MetadataError → String
  | .unknownHours market symbol kind =>
    "no market hours entry for " ++ symbol.toText ++ " on " ++ market.name ++ " (" ++ kind.name
      ++ ")"
  | .unknownProperties market symbol kind =>
    "no symbol properties for " ++ symbol.toText ++ " on " ++ market.name ++ " (" ++ kind.name
      ++ ")"

/-- The hours of an instrument and the zone that its data is stamped in. -/
structure HoursEntry where
  hours : MarketHours
  dataZone : Zone

/-- Trading hours by market, kind and root. -/
abbrev HoursTable := MetadataTable HoursEntry

namespace HoursTable

/-- The usual hours of every exchange's futures, with data stamped in local time. -/
def ofExchanges : HoursTable :=
  Exchange.all.foldl (fun (table : HoursTable) exchange =>
    let hours := MarketHours.ofExchange exchange
    table.insert exchange none .future ⟨hours, hours.zone⟩) MetadataTable.empty

/-- The hours of a symbol on a market. -/
def hours (t : HoursTable) (market : Exchange) (s : Symbol) (kind : Kind) :
    Except MetadataError HoursEntry :=
  match t.lookup? market s kind with
  | some entry => .ok entry
  | none => .error (.unknownHours market s kind)

end HoursTable

end FuturesChains
