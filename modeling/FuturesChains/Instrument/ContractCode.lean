import FuturesChains.Calendar.Date
import FuturesChains.Text.Letters

/-!
# Contract codes

A contract code such as `CLZ25` is a root, a letter for the delivery month and one or two digits of
the year. Characters other than ASCII letters and digits are ignored, and so is case. Two digits
name a year from 1980 to 2079. One digit names a year of the decade of a reference year, or of the
next decade when that would lie more than two years back.
-/

namespace FuturesChains

/-- The letters of the delivery months, January first. -/
def monthLetters : List Char := ['F', 'G', 'H', 'J', 'K', 'M', 'N', 'Q', 'U', 'V', 'X', 'Z']

/-- The letter of a month, or a question mark for a number that is no month. -/
def monthLetter (month : Nat) : Char :=
  if month = 0 then '?' else monthLetters.getD (month - 1) '?'

/-- The month of a letter in either case. -/
def monthOfLetter? (letter : Char) : Option Nat :=
  (monthLetters.idxOf? letter.toUpper).map (· + 1)

/-- The digits of a contract year. -/
inductive YearDigits where
  | one (digit : Nat)
  | two (number : Nat)
  deriving DecidableEq, Repr

/-- The year that the digits name, seen from a reference year. -/
def YearDigits.resolve (reference : Int) : YearDigits → Int
  | .two n => if n ≤ 79 then 2000 + n else 1900 + n
  | .one n =>
    let year := reference - reference % 10 + n
    if year < reference - 2 then year + 10 else year

/-- The parts of a contract code. -/
structure ContractCode where
  root : List Char
  month : Nat
  year : YearDigits
  deriving DecidableEq, Repr

namespace ContractCode

/-- The year that one or two digits write, last digit first. -/
def yearDigits? : List Char → Option YearDigits
  | [units] => some (.one (Date.digitsValue [units]))
  | [units, tens] => some (.two (Date.digitsValue [tens, units]))
  | _ => none

/-- Split letters and digits into a root that is not empty, a month letter and year digits. -/
def ofChars? (cs : List Char) : Option ContractCode :=
  let back := cs.reverse
  match yearDigits? (back.takeWhile Char.isDigit), back.dropWhile Char.isDigit with
  | some year, letter :: root =>
    if root.isEmpty then none
    else (monthOfLetter? letter).map fun month => ⟨root.reverse, month, year⟩
  | _, _ => none

/-- The contract code that a text holds. -/
def read? (text : String) : Option ContractCode := ofChars? (Text.alphanumerics text)

/-- The root of the contract code that a text holds, or all of its letters and digits if it holds
none. -/
def rootOf (text : String) : String :=
  match read? text with
  | some code => String.ofList code.root
  | none => String.ofList (Text.alphanumerics text)

/-- The first day of the delivery month, if the calendar has it. -/
def expiry? (code : ContractCode) (today : Date) : Option Date :=
  Date.ofCivil? ⟨code.year.resolve today.year, code.month, 1⟩

/-- The first day of the delivery month of the contract code that a text holds. -/
def expiryOf? (text : String) (today : Date) : Option Date :=
  (read? text).bind fun code => code.expiry? today

end ContractCode

end FuturesChains
