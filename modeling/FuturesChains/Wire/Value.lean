import FuturesChains.Number.DecimalReader
import FuturesChains.Number.Numeral

/-!
# Document values

The values of a JSON document, and the readings that all records share: closed sets of names,
integers in a range, decimals, optional values, and records that are written either with field names
or as a list of their fields in order.
-/

namespace FuturesChains.Wire

/-- A value of a document. A number stays as it is written. -/
inductive Value where
  | null
  | bool (value : Bool)
  | number (value : Numeral)
  | text (value : String)
  | list (items : List Value)
  | record (fields : List (String × Value))
  deriving Inhabited

namespace Value

/-- An integer as a value. -/
def ofNat (n : Nat) : Value := .number (.ofInt n)

/-- The value, or null for none. -/
def ofOption : Option Value → Value
  | some value => value
  | none => .null

/-- A truth value. -/
def asBool? : Value → Option Bool
  | .bool value => some value
  | _ => none

/-- A text. -/
def asText? : Value → Option String
  | .text value => some value
  | _ => none

/-- The items of a list. -/
def asList? : Value → Option (List Value)
  | .list items => some items
  | _ => none

/-- An integer, written as one, from 0 to below a bound. -/
def asNat? (bound : Nat) : Value → Option Nat
  | .number written =>
    match written.integer? with
    | some n => if 0 ≤ n ∧ n < bound then some n.toNat else none
    | none => none
  | _ => none

/-- A decimal: a text, an integer of 64 bits, or any other number by the digits of its double. -/
def asDecimal? : Value → Option Decimal
  | .text value => Decimal.ofText? value
  | .number written =>
    match written.integer? with
    | some n => Decimal.ofParts? (n < 0) n.natAbs 0
    | none => written.double?.bind fun x => Decimal.ofPlain? (x.toText written.negative).toList
  | _ => none

/-- The value of a record's field. -/
def field? (name : String) : Value → Option Value
  | .record fields => (fields.find? (·.1 == name)).map (·.2)
  | _ => none

/-- An optional value: null is none. -/
def asOption? {α : Type} (read : Value → Option α) : Value → Option (Option α)
  | .null => some none
  | value => (read value).map some

/-- A case of an enumeration: its name, and what is written behind it. -/
def asCase? : Value → Option (String × Option Value)
  | .text name => some (name, none)
  | .record [(name, value)] => some (name, some value)
  | _ => none

/-- A member of a closed set of names; a null may be written behind it. -/
def asName? {α : Type} (ofName : String → Option α) (value : Value) : Option α :=
  match value.asCase? with
  | some (name, none) => ofName name
  | some (name, some .null) => ofName name
  | _ => none

/-- The fields of a record in the order of their names: a record's by name, with null for one that
is missing, or the items of a list that has as many. -/
def asFields? (names : List String) : Value → Option (List Value)
  | .record fields => some (names.map fun name => (field? name (.record fields)).getD .null)
  | .list items => if items.length = names.length then some items else none
  | _ => none

end Value

end FuturesChains.Wire
