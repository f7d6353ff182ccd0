/-!
# Log entries

An entry of a log has a level, the name of the part that wrote it, a message and named fields. Its
line shows them in this order. Levels are counted from the most urgent one, so that a threshold is
the number of levels that it lets through.
-/

namespace FuturesChains

/-- How urgent an entry is. -/
inductive Level where
  | error
  | warn
  | info
  | debug
  | trace
  deriving DecidableEq, Repr

namespace Level

/-- The name of a level on a line. -/
def name : Level → String
  | error => "ERROR"
  | warn => "WARN"
  | info => "INFO"
  | debug => "DEBUG"
  | trace => "TRACE"

/-- The place of a level, the most urgent one first. -/
def depth : Level → Nat
  | error => 1
  | warn => 2
  | info => 3
  | debug => 4
  | trace => 5

end Level

/-- An entry of a log. -/
structure LogEntry where
  level : Level
  source : String
  message : String
  fields : List (String × String)
  deriving DecidableEq

namespace LogEntry

/-- The line of an entry. -/
def toText (e : LogEntry) : String :=
  e.level.name ++ " " ++ e.source ++ ": " ++ e.message
    ++ String.join (e.fields.map fun (name, value) => " " ++ name ++ "=" ++ value)

/-- An entry has a field of a name; its message is a field as well. -/
def hasField (e : LogEntry) (name : String) : Bool :=
  name == "message" || e.fields.any (·.1 == name)

end LogEntry

end FuturesChains
