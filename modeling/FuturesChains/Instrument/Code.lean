import FuturesChains.Text.Blank
import FuturesChains.Text.Letters
import FuturesChains.Text.Quoted

/-!
# Kinds, exchanges and currencies

The closed sets of codes that instruments are described with. A code is looked up in a text without
regard to surrounding white space or the case of ASCII letters; a text outside the set is reported
with the set's name.
-/

namespace FuturesChains

/-- What sort of instrument a symbol names, in the order that symbols are sorted by. -/
inductive Kind where
  | future
  | option
  | equity
  | index
  | forex
  | crypto
  deriving DecidableEq, Repr

/-- The futures venues, in the order that symbols are sorted by. -/
inductive Exchange where
  | cme
  | globex
  | cbot
  | nymex
  | comex
  | cfe
  | eurex
  | iceus
  | iceeu
  | sgx
  deriving DecidableEq, Repr

/-- The quote and account currencies. -/
inductive Currency where
  | usd
  | eur
  | gbp
  | jpy
  | chf
  | cad
  | aud
  | sgd
  deriving DecidableEq, Repr

namespace Kind

/-- All kinds in their order. -/
def all : List Kind := [future, option, equity, index, forex, crypto]

/-- The name of a kind. -/
def name : Kind → String
  | future => "Future"
  | option => "Option"
  | equity => "Equity"
  | index => "Index"
  | forex => "Forex"
  | crypto => "Crypto"

/-- The place of a kind in the order. -/
def rank (k : Kind) : Nat := k.ctorIdx

/-- The kind with exactly this name. -/
def ofName? (name : String) : Option Kind := all.find? (·.name == name)

/-- Derivatives are listed in chains: one symbol for the chain and one for each contract. -/
def isDerivative : Kind → Bool
  | future | option => true
  | _ => false

end Kind

namespace Exchange

/-- All exchanges in their order. -/
def all : List Exchange := [cme, globex, cbot, nymex, comex, cfe, eurex, iceus, iceeu, sgx]

/-- The name of an exchange. -/
def name : Exchange → String
  | cme => "CME"
  | globex => "GLOBEX"
  | cbot => "CBOT"
  | nymex => "NYMEX"
  | comex => "COMEX"
  | cfe => "CFE"
  | eurex => "EUREX"
  | iceus => "ICEUS"
  | iceeu => "ICEEU"
  | sgx => "SGX"

/-- The place of an exchange in the order. -/
def rank (e : Exchange) : Nat := e.ctorIdx

/-- The exchange with exactly this name. -/
def ofName? (name : String) : Option Exchange := all.find? (·.name == name)

end Exchange

namespace Currency

/-- All currencies in their order. -/
def all : List Currency := [usd, eur, gbp, jpy, chf, cad, aud, sgd]

/-- The name of a currency. -/
def name : Currency → String
  | usd => "USD"
  | eur => "EUR"
  | gbp => "GBP"
  | jpy => "JPY"
  | chf => "CHF"
  | cad => "CAD"
  | aud => "AUD"
  | sgd => "SGD"

/-- The currency with exactly this name. -/
def ofName? (name : String) : Option Currency := all.find? (·.name == name)

end Currency

/-- A text that names no member of a set of codes: the name of the set and the trimmed text. -/
structure UnknownCode where
  set : String
  code : String
  deriving DecidableEq, Repr

/-- The wording for an unknown code. -/
def UnknownCode.message (e : UnknownCode) : String :=
  "unknown " ++ e.set ++ " code " ++ Text.quote e.code

/-- The member whose name is the trimmed text up to the case of letters. -/
def readCode {α : Type} (members : List α) (name : α → String) (set text : String) :
    Except UnknownCode α :=
  let wanted := Text.trim text
  match members.find? fun member => Text.sameLetters (name member) wanted with
  | some member => .ok member
  | none => .error ⟨set, wanted⟩

/-- Read the name of an exchange. -/
def Exchange.read (text : String) : Except UnknownCode Exchange :=
  readCode Exchange.all Exchange.name "exchange" text

/-- Read the name of a currency. -/
def Currency.read (text : String) : Except UnknownCode Currency :=
  readCode Currency.all Currency.name "currency" text

/-- Every kind is listed. -/
theorem Kind.mem_all (k : Kind) : k ∈ Kind.all := by
  cases k <;> decide

/-- Every exchange is listed. -/
theorem Exchange.mem_all (e : Exchange) : e ∈ Exchange.all := by
  cases e <;> decide

/-- Every currency is listed. -/
theorem Currency.mem_all (c : Currency) : c ∈ Currency.all := by
  cases c <;> decide

end FuturesChains
