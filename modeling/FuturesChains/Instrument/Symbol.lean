import FuturesChains.Instrument.Code
import FuturesChains.Instrument.ContractCode

/-!
# Symbols

A symbol is the identity of an instrument: a root or ticker, a kind, a market, and for a contract
its expiry. A derivative without an expiry is canonical: it names the whole chain of contracts that
share its root, kind and market. Symbols have a total order by those four parts, and `ascending`
puts a list into that order with every symbol once.
-/

namespace FuturesChains

/-- The identity of an instrument. -/
structure Symbol where
  id : String
  kind : Kind
  market : Exchange
  expiry : Option Date
  deriving DecidableEq

namespace Symbol

/-- The symbol of a whole chain, or of an instrument without contracts. -/
def undated (id : String) (kind : Kind) (market : Exchange) : Symbol := ⟨id, kind, market, none⟩

/-- A futures contract. -/
def future (root : String) (market : Exchange) (expiry : Date) : Symbol :=
  ⟨root, .future, market, some expiry⟩

/-- A stock. -/
def equity (ticker : String) (market : Exchange) : Symbol := undated ticker .equity market

/-- The contract that a contract code names on a market, the first of the month as its expiry. -/
def ofContractCode? (code : String) (market : Exchange) (today : Date) : Option Symbol := do
  let expiry ← ContractCode.expiryOf? code today
  let root := ContractCode.rootOf code
  if root.isEmpty then none else some (future (Text.upper root) market expiry)

/-- The symbol names a whole chain. -/
def isCanonical (s : Symbol) : Bool := s.kind.isDerivative && s.expiry.isNone

/-- The symbol of the chain that a symbol belongs to. -/
def toCanonical (s : Symbol) : Symbol := undated s.id s.kind s.market

/-- The short name of the chain. -/
def chainName (s : Symbol) : String := "/" ++ s.id

/-- The last two digits of a year, at least two characters wide; a negative year keeps its sign. -/
def shortYear (year : Int) : String :=
  -- the remainder has the sign of the year
  let n := year.tmod 100
  if n < 0 then "-" ++ String.ofList (Nat.toDigits 10 n.natAbs) else Date.twoDigits n.toNat

/-- The display text: the name of a chain, the contract code of a contract, else the ticker. -/
def toText (s : Symbol) : String :=
  match s.expiry with
  | some date => s.id ++ String.singleton (monthLetter date.month) ++ shortYear date.year
  | none => if s.isCanonical then s.chainName else s.id

/-- The order of expiries: no expiry before any date. -/
def compareExpiry : Option Date → Option Date → Ordering
  | none, none => .eq
  | none, some _ => .lt
  | some _, none => .gt
  | some a, some b => compare a.day b.day

/-- The order of symbols: by root in the order of code points, then by kind, market and expiry. -/
def compare (a b : Symbol) : Ordering :=
  (Ord.compare a.id b.id).then <|
    (Ord.compare a.kind.rank b.kind.rank).then <|
      (Ord.compare a.market.rank b.market.rank).then <| compareExpiry a.expiry b.expiry

/-- The first symbol does not come after the second. -/
def atMost (a b : Symbol) : Bool := a.compare b != .gt

/-- A list without the symbols that equal the one before them. -/
def dropRepeats : List Symbol → List Symbol
  | [] => []
  | [s] => [s]
  | s :: t :: rest => if s = t then dropRepeats (t :: rest) else s :: dropRepeats (t :: rest)

/-- The symbols of a list in their order, each once. -/
def ascending (symbols : List Symbol) : List Symbol := dropRepeats (symbols.mergeSort atMost)

/-- The chain of a symbol's chain is that chain. -/
theorem toCanonical_toCanonical (s : Symbol) : s.toCanonical.toCanonical = s.toCanonical := rfl

/-- A canonical symbol is the symbol of its chain. -/
theorem toCanonical_of_isCanonical {s : Symbol} (h : s.isCanonical = true) : s.toCanonical = s := by
  obtain ⟨id, kind, market, expiry⟩ := s
  simp only [isCanonical, Bool.and_eq_true, Option.isNone_iff_eq_none] at h
  simp [toCanonical, undated, h.2]

end Symbol

end FuturesChains
