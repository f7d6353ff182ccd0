import FuturesChains.Engine.Registry

/-!
# Construction of securities

A request holds all that a new security is made from. The construction service refuses some requests
and assembles the others: it adds the data subscription, runs the initializer, and sets an explicit
leverage last. A lot size that is not positive is refused before anything is added. A service is
given the table of subscriptions and may add to it before it refuses; `LeavesTable` says of a
service that it does not. `deciding_leavesTable` says that a service that decides before it touches
the table is such, and so are `standard` and `refusing`.
-/

namespace FuturesChains

/-- All that a new security is made from. No leverage keeps what the initializer chose. -/
structure SecurityRequest where
  symbol : Symbol
  hours : HoursEntry
  properties : Properties
  initializer : Initializer
  resolution : Resolution
  fillForward : Bool
  leverage : Option Decimal
  extendedMarketHours : Bool
  internalFeed : Bool
  customData : Bool
  liveMode : Bool
  filtered : Bool

/-- Why a security was not constructed. A refusal gives its causes, the outermost first. -/
inductive ConstructionError where
  | lotSize (size : Decimal) (symbol : Symbol)
  | refused (causes : List String)
  deriving DecidableEq

/-- The wording for a failed construction. -/
def ConstructionError.message : ConstructionError → String
  | .lotSize size symbol => "invalid lot size " ++ size.toText ++ " for " ++ symbol.toText
  | .refused causes => ": ".intercalate causes

/-- The data subscription of a request. -/
def SecurityRequest.subscription (q : SecurityRequest) : Subscription :=
  { symbol := q.symbol
    resolution := q.resolution
    increment? := q.resolution.span?
    dataZone := q.hours.dataZone
    exchangeZone := q.hours.hours.zone
    fillForward := q.fillForward
    extendedMarketHours := q.extendedMarketHours
    internalFeed := q.internalFeed
    customData := q.customData
    filtered := q.filtered }

/-- The security of a request and a subscription, initialized, with an explicit leverage set
last. -/
def SecurityRequest.security (q : SecurityRequest) (subscription : Subscription) : Security :=
  let made := (Security.assembled q.symbol q.properties q.hours.hours q.hours.dataZone
    subscription).run q.initializer
  -- an explicit leverage has the last word over the initializer
  match q.leverage with
  | some value => made.change (.leverage value)
  | none => made

/-- Assemble the security of a request and add its data subscription: the answer, and the table
after it. -/
def SecurityRequest.assemble (q : SecurityRequest) (table : SubscriptionTable) :
    Except ConstructionError Security × SubscriptionTable :=
  if q.properties.lotSize.isPositive then
    let (kept, table) := table.add q.subscription
    (.ok (q.security kept), table)
  else (.error (.lotSize q.properties.lotSize q.symbol), table)

/-- A construction service: the requests that it refuses where it is given a table of subscriptions,
each with the causes of the refusal and the table that it leaves. All others are assembled. -/
structure ConstructionService where
  refusal : SecurityRequest → SubscriptionTable → Option (List String × SubscriptionTable)

namespace ConstructionService

/-- A service that decides by the request alone, before it touches the table. It refuses a request
for the causes that are given for it. -/
def deciding (causes? : SecurityRequest → Option (List String)) : ConstructionService :=
  ⟨fun q table => (causes? q).map (·, table)⟩

/-- The service that refuses nothing. -/
def standard : ConstructionService := deciding fun _ => none

/-- The service that refuses the symbols of some roots, always for the same causes. -/
def refusing (roots : List String) (causes : List String) : ConstructionService :=
  deciding fun q => if roots.contains q.symbol.id then some causes else none

/-- Answer a request: the answer, and the table of subscriptions after it. -/
def construct (service : ConstructionService) (q : SecurityRequest) (table : SubscriptionTable) :
    Except ConstructionError Security × SubscriptionTable :=
  match service.refusal q table with
  | some (causes, left) => (.error (.refused causes), left)
  | none => q.assemble table

/-- Where the service refuses a request, it leaves the table of subscriptions as it was. -/
def LeavesTable (service : ConstructionService) : Prop :=
  ∀ q table causes left, service.refusal q table = some (causes, left) → left = table

/-- Which requests the service refuses, and for what causes, does not depend on the table. -/
def AnswersRequest (service : ConstructionService) : Prop :=
  ∀ q table other, (service.refusal q table).map (·.1) = (service.refusal q other).map (·.1)

/-- Given the table that it left when it refused a request, the service refuses the request again
for the same causes and leaves the table. -/
def Repeats (service : ConstructionService) : Prop :=
  ∀ q table causes left, service.refusal q table = some (causes, left) →
    service.refusal q left = some (causes, left)

theorem LeavesTable.repeats {service : ConstructionService} (h : service.LeavesTable) :
    service.Repeats := by
  intro q table causes left hrefusal
  obtain rfl := h q table causes left hrefusal
  exact hrefusal

theorem deciding_leavesTable (causes? : SecurityRequest → Option (List String)) :
    (deciding causes?).LeavesTable := by
  intro q table causes left hrefusal
  obtain ⟨causes', -, hleft⟩ := Option.map_eq_some_iff.1 hrefusal
  cases hleft
  rfl

theorem deciding_answersRequest (causes? : SecurityRequest → Option (List String)) :
    (deciding causes?).AnswersRequest := by
  intro q table other
  simp [deciding, Function.comp_def]

theorem standard_leavesTable : standard.LeavesTable := deciding_leavesTable _

theorem refusing_leavesTable (roots causes : List String) :
    (refusing roots causes).LeavesTable := deciding_leavesTable _

theorem refusing_answersRequest (roots causes : List String) :
    (refusing roots causes).AnswersRequest := deciding_answersRequest _

end ConstructionService

end FuturesChains
