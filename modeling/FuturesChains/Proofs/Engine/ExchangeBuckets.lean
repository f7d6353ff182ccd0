import Mathlib.Algebra.BigOperators.Group.List.Basic
import Mathlib.Algebra.GroupWithZero.Nat
import Mathlib.Logic.Function.Basic
import FuturesChains.Proofs.Selection.ChainResolution

/-!
# A registry in buckets

A registry may keep its symbols in one bucket for each exchange, so that the exchanges do not wait
for each other: a security goes into the bucket of its exchange, and a symbol is looked up and taken
off in the bucket of its market. `ExchangeBuckets` is such a store. A security is assembled for the
market of its symbol, so the two name the same bucket, and the store answers as the undivided
registry does: `Registry.byExchange` divides a registry, and insertions and removals commute with it
(`Registry.insert_byExchange`, `Registry.remove_byExchange`).
-/

namespace FuturesChains

/-- The exchange of a security. -/
def Security.exchange (s : Security) : Exchange := s.symbol.market

/-- A registry that keeps its symbols by exchange. An exchange without securities has an empty
bucket. -/
structure ExchangeBuckets where
  cells : List Security
  bucket : Exchange → List (Symbol × SecurityId)
  journal : List RegistryEvent

namespace ExchangeBuckets

/-- The store without securities. -/
def empty : ExchangeBuckets := ⟨[], fun _ => [], []⟩

/-- The security registered under exactly this symbol, in the bucket of its market. -/
def find? (b : ExchangeBuckets) (symbol : Symbol) : Option SecurityId :=
  ((b.bucket symbol.market).find? (·.1 = symbol)).map (·.2)

/-- Register a security in the bucket of its exchange unless its symbol is there. -/
def insert (b : ExchangeBuckets) (security : Security) : SecurityId × ExchangeBuckets :=
  let entries := b.bucket security.exchange
  match entries.find? (·.1 = security.symbol) with
  | some entry => (entry.2, b)
  | none =>
    let id : SecurityId := ⟨b.cells.length⟩
    (id,
      { cells := b.cells ++ [security]
        bucket := Function.update b.bucket security.exchange (entries ++ [(security.symbol, id)])
        journal := b.journal ++ [.added security.symbol] })

/-- Take a symbol out of the bucket of its market. -/
def remove (b : ExchangeBuckets) (symbol : Symbol) : Option SecurityId × ExchangeBuckets :=
  let entries := b.bucket symbol.market
  match entries.find? (·.1 = symbol) with
  | none => (none, b)
  | some entry =>
    (some entry.2,
      { b with
        bucket := Function.update b.bucket symbol.market (entries.filter (·.1 ≠ symbol))
        journal := b.journal ++ [.removed symbol] })

/-- The number of registered securities in all buckets. -/
def size (b : ExchangeBuckets) : Nat :=
  (Exchange.all.map fun exchange => (b.bucket exchange).length).sum

end ExchangeBuckets

/-- Every entry is in the bucket of one exchange. -/
theorem sum_length_byMarket (entries : List (Symbol × SecurityId)) :
    (Exchange.all.map fun exchange => (entries.filter (·.1.market = exchange)).length).sum =
      entries.length := by
  induction entries with
  | nil => rfl
  | cons entry rest ih =>
      have hone : (Exchange.all.map fun exchange =>
          if entry.1.market = exchange then 1 else 0).sum = 1 := by
        cases entry.1.market <;> rfl
      have hcons : ∀ exchange, ((entry :: rest).filter (·.1.market = exchange)).length =
          (if entry.1.market = exchange then 1 else 0) +
            (rest.filter (·.1.market = exchange)).length := by
        intro exchange
        by_cases hmarket : entry.1.market = exchange <;> simp [hmarket, Nat.add_comm]
      simp only [hcons]
      rw [List.sum_map_add, hone, ih, List.length_cons, Nat.add_comm]

namespace Registry

/-- The registry in buckets. -/
def byExchange (r : Registry) : ExchangeBuckets where
  cells := r.cells
  bucket := fun exchange => r.index.filter (·.1.market = exchange)
  journal := r.journal

/-- A symbol is in no bucket but the one of its market. -/
theorem find?_bucket (r : Registry) (symbol : Symbol) :
    (r.byExchange.bucket symbol.market).find? (·.1 = symbol) = r.index.find? (·.1 = symbol) := by
  rw [byExchange, List.find?_filter]
  congr 1
  funext entry
  by_cases hentry : entry.1 = symbol
  · simp [hentry]
  · simp [hentry]

theorem find?_byExchange (r : Registry) (symbol : Symbol) :
    r.byExchange.find? symbol = r.find? symbol := by
  rw [ExchangeBuckets.find?, find?_bucket, find?]

theorem insert_byExchange (r : Registry) (security : Security) :
    r.byExchange.insert security = ((r.insert security).1, (r.insert security).2.byExchange) := by
  simp only [ExchangeBuckets.insert, Security.exchange, find?_bucket]
  cases hentry : r.index.find? (·.1 = security.symbol) with
  | some entry =>
      have hfind : r.find? security.symbol = some entry.2 := by simp [find?, hentry]
      rw [insert_of_find? hfind]
  | none =>
      rw [insert_of_find?_eq_none (by simp [find?, hentry])]
      simp only [byExchange, extend, Prod.mk.injEq, ExchangeBuckets.mk.injEq, true_and, and_true]
      funext exchange
      by_cases hmarket : security.symbol.market = exchange
      · subst hmarket
        simp
      · simp [Function.update_of_ne (Ne.symm hmarket), hmarket]

theorem remove_byExchange (r : Registry) (symbol : Symbol) :
    r.byExchange.remove symbol = ((r.remove symbol).1, (r.remove symbol).2.byExchange) := by
  simp only [ExchangeBuckets.remove, find?_bucket, remove, find?]
  cases hentry : r.index.find? (·.1 = symbol) with
  | none => rfl
  | some entry =>
      simp only [Option.map_some, byExchange, Prod.mk.injEq, ExchangeBuckets.mk.injEq, true_and,
        and_true]
      funext exchange
      by_cases hmarket : symbol.market = exchange
      · subst hmarket
        simp [List.filter_filter, Bool.and_comm]
      · rw [Function.update_of_ne (Ne.symm hmarket), List.filter_filter]
        -- the bucket of another exchange does not hold the symbol
        refine List.filter_congr fun other _ => ?_
        by_cases hother : other.1 = symbol
        · simp [hother, hmarket]
        · simp [hother]

theorem size_byExchange (r : Registry) : r.byExchange.size = r.size :=
  sum_length_byMarket r.index

end Registry

end FuturesChains
