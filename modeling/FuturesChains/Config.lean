import FuturesChains.Calendar.Timestamp
import FuturesChains.Instrument.Symbol
import FuturesChains.Text.Split

/-!
# Configuration

The settings of a run, read from seven variables with default texts. The variables are checked in a
fixed order, and the first one with a fault ends the reading; an error is the name of its variable
and a cause. Chains are written as roots with commas between them, each with an optional market
behind an at sign.
-/

namespace FuturesChains

/-- The variables of the configuration, in the order in which they are checked. -/
inductive Variable where
  | chainMarket
  | chainRoots
  | refreshInterval
  | chainMode
  | backtestStart
  | backtestDays
  | accountCurrency
  deriving DecidableEq, Repr

namespace Variable

/-- All variables in their order. -/
def all : List Variable :=
  [chainMarket, chainRoots, refreshInterval, chainMode, backtestStart, backtestDays,
    accountCurrency]

/-- The name of a variable in the environment. -/
def name : Variable → String
  | chainMarket => "CHAIN_MARKET"
  | chainRoots => "CHAIN_ROOTS"
  | refreshInterval => "REFRESH_INTERVAL_MINS"
  | chainMode => "CHAIN_MODE"
  | backtestStart => "BACKTEST_START"
  | backtestDays => "BACKTEST_DAYS"
  | accountCurrency => "ACCOUNT_CURRENCY"

/-- The text of a variable that is not set. -/
def defaultText : Variable → String
  | chainMarket => "NYMEX"
  | chainRoots => "CL,ES@CME"
  | refreshInterval => "1440"
  | chainMode => "backtest"
  | backtestStart => "2024-01-02T00:00:00Z"
  | backtestDays => "5"
  | accountCurrency => "USD"

end Variable

/-- The texts of the variables that are set, by name. -/
abbrev Environment := String → Option String

/-- The text of a variable. -/
def Environment.text (env : Environment) (v : Variable) : String :=
  (env v.name).getD v.defaultText

/-- Whether a run follows the wall clock or a simulated one. -/
inductive Mode where
  | live
  | backtest
  deriving DecidableEq, Repr

/-- The name of a mode. -/
def Mode.name : Mode → String
  | .live => "Live"
  | .backtest => "Backtest"

/-- What is wrong with the text of a variable. -/
inductive ConfigCause where
  | code (error : UnknownCode)
  | inItem (item : String) (error : UnknownCode)
  | noChains
  | integer (fault : IntegerFault)
  | notPositive (value : Int)
  | minutesOutOfRange (minutes : Int)
  | mode (text : String)
  | timestamp (fault : TimestampFault)
  | daysOutOfRange (days : Int) (start : Instant)
  deriving DecidableEq

/-- The wording of a cause, the outermost part first. -/
def ConfigCause.messages : ConfigCause → List String
  | .code error => [error.message]
  | .inItem item error => ["in " ++ Text.quote item, error.message]
  | .noChains => ["no chains configured"]
  | .integer fault => [fault.message]
  | .notPositive value => ["must be positive, got " ++ toString value]
  | .minutesOutOfRange minutes => [toString minutes ++ " minutes is out of range"]
  | .mode text => ["expected backtest or live, got " ++ Text.quote text]
  | .timestamp fault => [fault.message]
  | .daysOutOfRange days start =>
    [toString days ++ " days past " ++ start.toText ++ " is out of range"]

/-- A variable whose text is wrong. -/
structure ConfigError where
  blamed : Variable
  cause : ConfigCause
  deriving DecidableEq

namespace ConfigError

/-- The name of the variable and the wording of the cause. -/
def messages (e : ConfigError) : List String := e.blamed.name :: e.cause.messages

/-- The error on one line. -/
def message (e : ConfigError) : String := ": ".intercalate e.messages

/-- The error as a report: the variable, and the causes on lines of their own, numbered if there are
several. -/
def report (e : ConfigError) : String :=
  let line (cause : String) : String := "    " ++ cause ++ "\n"
  let numbered (entry : String × Nat) : String :=
    "    " ++ toString entry.2 ++ ": " ++ entry.1 ++ "\n"
  let causes := match e.cause.messages with
    | [cause] => line cause
    -- numbers appear only where there is something to tell apart
    | causes => String.join (causes.zipIdx.map numbered)
  "Error: " ++ e.blamed.name ++ "\n\nCaused by:\n" ++ causes

end ConfigError

/-- The settings of a run. -/
structure Config where
  chains : List Symbol
  interval : Span
  mode : Mode
  start : Instant
  days : Int
  finish : Instant
  account : Currency
  deriving DecidableEq

namespace Config

/-- Read one item of a chain list: a root, and a market behind the first at sign. -/
def readChain (market : Exchange) (item : List Char) : Except ConfigCause Symbol :=
  match Text.cutAtFirst '@' item with
  | none => .ok (.undated (Text.upper (String.ofList item)) .future market)
  | some (root, code) =>
    match Exchange.read (String.ofList code) with
    | .error error => .error (.inItem (String.ofList item) error)
    | .ok market => .ok (.undated (Text.upper (String.ofList (Text.trimmed root))) .future market)

/-- The items of a chain list that are not blank, without the white space around them. -/
def chainItems (text : String) : List (List Char) :=
  ((Text.splitOn ',' text.toList).map Text.trimmed).filter (!·.isEmpty)

/-- Read a chain list; an item without a market has the given one. -/
def readChains (market : Exchange) (text : String) : Except ConfigCause (List Symbol) := do
  let chains ← (chainItems text).mapM (readChain market)
  if chains.isEmpty then .error .noChains else .ok chains

/-- Read a count that must be positive. -/
def readPositive (text : String) : Except ConfigCause Int :=
  match readInt64 (Text.trim text) with
  | .error fault => .error (.integer fault)
  | .ok value => if 0 < value then .ok value else .error (.notPositive value)

/-- Read a number of minutes as a span. -/
def readInterval (text : String) : Except ConfigCause Span := do
  let minutes ← readPositive text
  match Span.ofMinutes? minutes with
  | some span => .ok span
  | none => .error (.minutesOutOfRange minutes)

/-- Read a mode. -/
def readMode (text : String) : Except ConfigCause Mode :=
  let name := Text.lower (Text.trim text)
  if name = "backtest" then .ok .backtest
  else if name = "live" then .ok .live
  else .error (.mode name)

/-- Read the start of a backtest. -/
def readStart (text : String) : Except ConfigCause Instant :=
  (Timestamp.read (Text.trim text)).mapError .timestamp

/-- The end of a backtest of some days. -/
def finishOf (start : Instant) (days : Int) : Except ConfigCause Instant :=
  match (Span.ofDays? days).bind fun span => start.add? span with
  | some finish => .ok finish
  | none => .error (.daysOutOfRange days start)

/-- Lay a fault at a variable's door. -/
def blame {α : Type} (v : Variable) (result : Except ConfigCause α) : Except ConfigError α :=
  result.mapError fun cause => ⟨v, cause⟩

/-- Read the settings from an environment. -/
def read (env : Environment) : Except ConfigError Config := do
  let market ← blame .chainMarket <|
    (Exchange.read (env.text .chainMarket)).mapError .code
  let chains ← blame .chainRoots <| readChains market (env.text .chainRoots)
  let interval ← blame .refreshInterval <| readInterval (env.text .refreshInterval)
  let mode ← blame .chainMode <| readMode (env.text .chainMode)
  let start ← blame .backtestStart <| readStart (env.text .backtestStart)
  let days ← blame .backtestDays <| readPositive (env.text .backtestDays)
  let finish ← blame .backtestDays <| finishOf start days
  let account ← blame .accountCurrency <|
    (Currency.read (env.text .accountCurrency)).mapError .code
  return { chains, interval, mode, start, days, finish, account }

/-- A reading goes on after a variable whose text is right. -/
theorem blame_bind_eq_ok {α β : Type} {v : Variable} {result : Except ConfigCause α}
    {f : α → Except ConfigError β} {b : β} :
    (blame v result >>= f) = .ok b ↔ ∃ a, result = .ok a ∧ f a = .ok b := by
  cases result with
  | error cause =>
    constructor
    · intro h
      cases h
    · rintro ⟨a, h, -⟩
      cases h
  | ok a =>
    constructor
    · intro h
      exact ⟨a, rfl, h⟩
    · rintro ⟨_, h, hrest⟩
      cases h
      exact hrest

/-- What the times of a configuration are read from. -/
theorem of_read {env : Environment} {cfg : Config} (h : read env = .ok cfg) :
    readInterval (env.text .refreshInterval) = .ok cfg.interval ∧
      readPositive (env.text .backtestDays) = .ok cfg.days ∧
      finishOf cfg.start cfg.days = .ok cfg.finish := by
  simp only [read, blame_bind_eq_ok] at h
  obtain ⟨market, -, chains, -, interval, hinterval, mode, -, start, -, days, hdays, finish,
    hfinish, account, -, h⟩ := h
  cases h
  exact ⟨hinterval, hdays, hfinish⟩

/-- A positive count that is read is positive and fits in 64 bits. -/
theorem readPositive_bounds {text : String} {value : Int} (h : readPositive text = .ok value) :
    0 < value ∧ value ≤ maxInt64 := by
  unfold readPositive at h
  split at h
  · cases h
  · rename_i read hread
    split at h
    · rename_i hpos
      obtain rfl : read = value := by simpa using h
      exact ⟨hpos, (readInt64_bounds hread).2⟩
    · cases h

/-- An interval that is read is a span of minutes in range. -/
theorem ofMinutes?_of_readInterval {text : String} {span : Span}
    (h : readInterval text = .ok span) :
    ∃ minutes, 0 < minutes ∧ Span.ofMinutes? minutes = some span := by
  unfold readInterval at h
  cases hread : readPositive text with
  | error cause =>
      rw [hread] at h
      cases h
  | ok minutes =>
      simp only [hread, bind, Except.bind] at h
      split at h
      · rename_i found hspan
        obtain rfl : found = span := by simpa using h
        exact ⟨minutes, (readPositive_bounds hread).1, hspan⟩
      · cases h

/-- An interval that is read is a positive number of minutes. -/
theorem readInterval_eq_ok {text : String} {span : Span} (h : readInterval text = .ok span) :
    ∃ minutes, 0 < minutes ∧ span.seconds = minutes * 60 := by
  obtain ⟨minutes, hpositive, hspan⟩ := ofMinutes?_of_readInterval h
  exact ⟨minutes, hpositive, Span.seconds_ofSeconds? hspan⟩

/-- The end of a backtest is a span of days in range behind its start. -/
theorem ofDays?_of_finishOf {start finish : Instant} {days : Int}
    (h : finishOf start days = .ok finish) :
    ∃ span, Span.ofDays? days = some span ∧ start.add? span = some finish := by
  unfold finishOf at h
  split at h
  · rename_i found hfound
    obtain rfl : found = finish := by simpa using h
    exact Option.bind_eq_some_iff.1 hfound
  · cases h

/-- The end of a backtest is a span of its days after the start. -/
theorem finishOf_eq_ok {start finish : Instant} {days : Int}
    (h : finishOf start days = .ok finish) :
    ∃ span : Span, span.seconds = days * 86400 ∧ start.add? span = some finish := by
  obtain ⟨span, hspan, hadd⟩ := ofDays?_of_finishOf h
  exact ⟨span, Span.seconds_ofSeconds? hspan, hadd⟩

end Config

end FuturesChains
