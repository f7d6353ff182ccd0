import Mathlib
import FuturesChains.Instrument.Symbol
import FuturesChains.Proofs.Calendar.MonthNumber

/-!
# Contract codes and their symbols

The written form of a contract code is its root, the letter of its month and the digits of its year.
`ContractCode.ofChars?_eq_some_iff` says that capital letters and digits are read as a code exactly
if they are its written form, so a root may hold digits and month letters of its own. A contract is
displayed by the written form with two digits of the year. `contract_code_inverse` says that reading
and display are inverse to each other in the years that two digits can name.
-/

namespace FuturesChains

namespace Text

/-- An ASCII capital letter or a digit. -/
def isCapital (c : Char) : Bool := c.isUpper || c.isDigit

theorem isAlphanum_of_isCapital {c : Char} (h : isCapital c = true) : c.isAlphanum = true := by
  rcases Bool.or_eq_true_iff.1 h with h | h <;> simp [Char.isAlphanum, Char.isAlpha, h]

/-- Capital letters and digits have no other upper case. -/
theorem toUpper_of_isCapital {c : Char} (h : isCapital c = true) : c.toUpper = c := by
  apply Char.toUpper_eq_of_not_isLower
  rcases Bool.or_eq_true_iff.1 h with h | h
  · exact Char.not_isLower_of_isUpper h
  · have hbounds : 48 ≤ c.toNat ∧ c.toNat ≤ 57 := Char.isDigit_iff_toNat.1 h
    simp [Char.isLower, UInt32.le_iff_toNat_le]
    omega

/-- The upper case of a letter or digit is a capital letter or a digit. -/
theorem isCapital_toUpper {c : Char} (h : c.isAlphanum = true) : isCapital c.toUpper = true := by
  rcases Bool.or_eq_true_iff.1 h with h | h
  · simp [isCapital, h]
  · rw [toUpper_of_isCapital (by simp [isCapital, h])]
    simp [isCapital, h]

theorem isCapital_of_mem_alphanumerics {text : String} {c : Char} (h : c ∈ alphanumerics text) :
    isCapital c = true := by
  obtain ⟨d, hd, rfl⟩ := List.mem_map.1 h
  exact isCapital_toUpper (List.mem_filter.1 hd).2

/-- Capital letters and digits stay as they are. -/
theorem map_toUpper_of_isCapital {cs : List Char} (h : ∀ c ∈ cs, isCapital c = true) :
    cs.map Char.toUpper = cs := by
  rw [List.map_congr_left fun c hc => toUpper_of_isCapital (h c hc), List.map_id']

theorem alphanumerics_ofList {cs : List Char} (h : ∀ c ∈ cs, isCapital c = true) :
    alphanumerics (String.ofList cs) = cs := by
  have hall : cs.filter Char.isAlphanum = cs :=
    List.filter_eq_self.2 fun c hc => isAlphanum_of_isCapital (h c hc)
  rw [alphanumerics, String.toList_ofList, hall, map_toUpper_of_isCapital h]

theorem upper_ofList {cs : List Char} (h : ∀ c ∈ cs, isCapital c = true) :
    upper (String.ofList cs) = String.ofList cs := by
  rw [upper, String.toList_ofList, map_toUpper_of_isCapital h]

end Text

/-- A digit is the character of the number that it writes. -/
theorem Date.digitsValue_singleton {c : Char} (h : c.isDigit = true) :
    digitsValue [c] < 10 ∧ Nat.digitChar (digitsValue [c]) = c := by
  have hchars : ∀ n < 58, 48 ≤ n → Nat.digitChar (n - 48) = Char.ofNat n := by decide
  have hbounds : 48 ≤ c.toNat ∧ c.toNat ≤ 57 := Char.isDigit_iff_toNat.1 h
  have hvalue : digitsValue [c] = c.toNat - 48 := by simp [digitsValue]
  rw [hvalue, hchars c.toNat (by omega) hbounds.1, Char.ofNat_toNat]
  exact ⟨by omega, rfl⟩

namespace YearDigits

/-- One digit is below ten, and two are below a hundred. -/
def Valid : YearDigits → Prop
  | .one digit => digit < 10
  | .two number => number < 100

/-- The written form of the digits of a year. -/
def chars : YearDigits → List Char
  | .one digit => [Nat.digitChar digit]
  | .two number => [Nat.digitChar (number / 10), Nat.digitChar (number % 10)]

/-- The number that the digits of a year write. -/
def number : YearDigits → Nat
  | .one digit => digit
  | .two number => number

theorem isDigit_of_mem_chars {year : YearDigits} (hvalid : year.Valid) {c : Char}
    (hc : c ∈ year.chars) : c.isDigit = true := by
  cases year with
  | one digit =>
      obtain rfl := List.mem_singleton.1 hc
      have hdigit : digit < 10 := hvalid
      simpa [Nat.isDigit_digitChar] using hdigit
  | two number =>
      have hnumber : number < 100 := hvalid
      rcases List.mem_pair.1 hc with rfl | rfl
      · simp only [Nat.isDigit_digitChar, decide_eq_true_eq]
        omega
      · simp only [Nat.isDigit_digitChar, decide_eq_true_eq]
        omega

theorem digitsValue_chars {year : YearDigits} (hvalid : year.Valid) :
    Date.digitsValue year.chars = year.number := by
  have hvalue : ∀ d < 10, (Nat.digitChar d).toNat - 48 = d :=
    fun d hd => Nat.toNat_digitChar_sub_48_of_lt_ten hd
  cases year with
  | one digit => simp [chars, number, Date.digitsValue, hvalue digit hvalid]
  | two number =>
      have hnumber : number < 100 := hvalid
      simp only [chars, YearDigits.number, Date.digitsValue, List.foldl_cons, List.foldl_nil,
        hvalue (number / 10) (by omega), hvalue (number % 10) (by omega)]
      omega

end YearDigits

namespace ContractCode

/-- Digits that are one or two, the last one first, are the year that they write. -/
theorem yearDigits?_eq_some_iff {back : List Char} {year : YearDigits}
    (hdigits : ∀ c ∈ back, c.isDigit = true) :
    yearDigits? back = some year ↔ year.Valid ∧ back = year.chars.reverse := by
  constructor
  · intro h
    match back, h with
    | [units], h =>
        obtain rfl := Option.some.inj h
        obtain ⟨hlt, hchar⟩ := Date.digitsValue_singleton (hdigits units (by simp))
        exact ⟨hlt, by simp [YearDigits.chars, hchar]⟩
    | [units, tens], h =>
        obtain rfl := Option.some.inj h
        obtain ⟨hunits, hunitsChar⟩ := Date.digitsValue_singleton (hdigits units (by simp))
        obtain ⟨htens, htensChar⟩ := Date.digitsValue_singleton (hdigits tens (by simp))
        have hvalue : Date.digitsValue [tens, units] =
            10 * Date.digitsValue [tens] + Date.digitsValue [units] := by
          simp [Date.digitsValue, Nat.mul_comm]
        refine ⟨show _ < 100 by omega, ?_⟩
        rw [YearDigits.chars, hvalue,
          show (10 * Date.digitsValue [tens] + Date.digitsValue [units]) / 10 =
            Date.digitsValue [tens] by omega,
          show (10 * Date.digitsValue [tens] + Date.digitsValue [units]) % 10 =
            Date.digitsValue [units] by omega, htensChar, hunitsChar]
        rfl
  · rintro ⟨hvalid, rfl⟩
    have hvalue := YearDigits.digitsValue_chars hvalid
    cases year with
    | one digit => exact congrArg (fun n => some (YearDigits.one n)) hvalue
    | two number => exact congrArg (fun n => some (YearDigits.two n)) hvalue

/-- The parts of a written code: a root, a month and the digits of a year. -/
structure WellFormed (code : ContractCode) : Prop where
  root : code.root ≠ []
  month : 1 ≤ code.month ∧ code.month ≤ 12
  year : code.year.Valid

/-- The written form of a code. -/
def chars (code : ContractCode) : List Char :=
  code.root ++ monthLetter code.month :: code.year.chars

/-- The code that a contract is displayed by: the year is cut to its last two digits. -/
def displayed (root : List Char) (expiry : Date) : ContractCode :=
  ⟨root, expiry.month, .two (expiry.year % 100).toNat⟩

/-- A capital letter or digit is the letter of a month if it is the one that is written for it. -/
theorem monthOfLetter?_eq_some_iff {c : Char} (hc : Text.isCapital c = true) {month : Nat} :
    monthOfLetter? c = some month ↔ (1 ≤ month ∧ month ≤ 12) ∧ c = monthLetter month := by
  rw [monthOfLetter?, Text.toUpper_of_isCapital hc, Option.map_eq_some_iff]
  have hletters : ∀ month, 1 ≤ month ∧ month ≤ 12 →
      monthLetters.idxOf? (monthLetter month) = some (month - 1) := by
    rintro month ⟨hfirst, hlast⟩
    interval_cases month <;> decide
  constructor
  · rintro ⟨i, hi, rfl⟩
    obtain ⟨hlt, hletter, -⟩ := List.idxOf?_eq_some_iff.1 hi
    have hlength : monthLetters.length = 12 := rfl
    refine ⟨by omega, ?_⟩
    rw [← hletter]
    simp [monthLetter, hlt]
  · rintro ⟨hmonth, rfl⟩
    exact ⟨month - 1, hletters month hmonth, by omega⟩

/-- The letters of the months are capital letters and no digits. -/
theorem isUpper_monthLetter {month : Nat} (h : 1 ≤ month ∧ month ≤ 12) :
    (monthLetter month).isUpper = true ∧ (monthLetter month).isDigit = false := by
  obtain ⟨hfirst, hlast⟩ := h
  interval_cases month <;> decide

/-- A code is written in capital letters and digits if its root is. -/
theorem isCapital_of_mem_chars {code : ContractCode} (hformed : code.WellFormed)
    (hroot : ∀ c ∈ code.root, Text.isCapital c = true) {c : Char} (hc : c ∈ code.chars) :
    Text.isCapital c = true := by
  rcases List.mem_append.1 hc with hc | hc
  · exact hroot c hc
  · rcases List.mem_cons.1 hc with rfl | hc
    · simp [Text.isCapital, (isUpper_monthLetter hformed.month).1]
    · simp [Text.isCapital, YearDigits.isDigit_of_mem_chars hformed.year hc]

/-- From the end of a written code, the digits up to the first other character are those of the
year. -/
theorem span_isDigit_chars {code : ContractCode} (h : code.WellFormed) :
    code.chars.reverse.takeWhile Char.isDigit = code.year.chars.reverse ∧
      code.chars.reverse.dropWhile Char.isDigit =
        monthLetter code.month :: code.root.reverse := by
  have hdigits : ∀ c ∈ code.year.chars.reverse, c.isDigit = true := fun c hc =>
    YearDigits.isDigit_of_mem_chars h.year (List.mem_reverse.1 hc)
  have hletter : ¬ (monthLetter code.month).isDigit = true := by
    simp [(isUpper_monthLetter h.month).2]
  have hback : code.chars.reverse =
      code.year.chars.reverse ++ monthLetter code.month :: code.root.reverse := by
    simp [chars]
  constructor
  · rw [hback, List.takeWhile_append_of_pos hdigits, List.takeWhile_cons_of_neg hletter,
      List.append_nil]
  · rw [hback, List.dropWhile_append_of_pos hdigits, List.dropWhile_cons_of_neg hletter]

/-- Capital letters and digits are read as a code exactly if they are its written form. -/
theorem ofChars?_eq_some_iff {cs : List Char} {code : ContractCode}
    (hcapital : ∀ c ∈ cs, Text.isCapital c = true) :
    ofChars? cs = some code ↔ code.WellFormed ∧ cs = code.chars := by
  constructor
  · intro h
    unfold ofChars? at h
    simp only at h
    split at h
    · rename_i year letter root hyear hrest
      split at h
      · cases h
      · rename_i hroot
        obtain ⟨month, hmonth, rfl⟩ := Option.map_eq_some_iff.1 h
        have hsplit := List.takeWhile_append_dropWhile (p := Char.isDigit) (l := cs.reverse)
        obtain ⟨hvalid, hdigits⟩ := (yearDigits?_eq_some_iff fun c hc =>
          List.mem_takeWhile_imp hc).1 hyear
        rw [hrest, hdigits] at hsplit
        have hwritten : cs = root.reverse ++ letter :: year.chars := by
          rw [← List.reverse_reverse cs, ← hsplit]
          simp
        obtain ⟨hrange, hletter⟩ := (monthOfLetter?_eq_some_iff
          (hcapital letter (by simp [hwritten]))).1 hmonth
        refine ⟨⟨by simpa using hroot, hrange, hvalid⟩, ?_⟩
        rw [hwritten, hletter]
        rfl
    · cases h
  · rintro ⟨⟨hroot, hmonth, hvalid⟩, rfl⟩
    obtain ⟨htake, hdrop⟩ := span_isDigit_chars ⟨hroot, hmonth, hvalid⟩
    have hdigits : ∀ c ∈ code.year.chars.reverse, c.isDigit = true := fun c hc =>
      YearDigits.isDigit_of_mem_chars hvalid (List.mem_reverse.1 hc)
    have hyear := (yearDigits?_eq_some_iff hdigits).2 ⟨hvalid, rfl⟩
    have hread := (monthOfLetter?_eq_some_iff
      (hcapital (monthLetter code.month) (by simp [chars]))).2 ⟨hmonth, rfl⟩
    simp [ofChars?, htake, hdrop, hyear, hread, hroot]

/-- The letters and digits of a text are read as a code exactly if they are its written form. -/
theorem read?_eq_some_iff {text : String} {code : ContractCode} :
    read? text = some code ↔ code.WellFormed ∧ Text.alphanumerics text = code.chars :=
  ofChars?_eq_some_iff fun _ => Text.isCapital_of_mem_alphanumerics

/-- A code that is read has a root of capital letters and digits. -/
theorem isCapital_of_alphanumerics_eq {text : String} {code : ContractCode}
    (h : Text.alphanumerics text = code.chars) : ∀ c ∈ code.root, Text.isCapital c = true := by
  intro c hc
  have hmem : c ∈ Text.alphanumerics text := by
    rw [h]
    exact List.mem_append_left _ hc
  exact Text.isCapital_of_mem_alphanumerics hmem

end ContractCode

/-- Two digits write a year from 1980 to 2079. -/
theorem YearDigits.resolve_two_iff {number : Nat} (hnumber : number < 100) {year : Int}
    (reference : Int) : (YearDigits.two number).resolve reference = year ↔
      (1980 ≤ year ∧ year ≤ 2079) ∧ year % 100 = number := by
  simp only [resolve]
  split <;> omega

/-- Two digits of a year as they are displayed. -/
theorem Date.toList_twoDigits {number : Nat} (h : number < 100) :
    (twoDigits number).toList = (YearDigits.two number).chars := by
  have hdigits : ∀ n < 100, Decimal.padDigits 2 n = (YearDigits.two n).chars := by decide +kernel
  rw [twoDigits, String.toList_ofList, hdigits number h]

/-- The first day of a month in these years is in the calendar. -/
theorem Date.exists_firstDay {year : Int} {month : Nat} (hyear : 1980 ≤ year ∧ year ≤ 2079)
    (hmonth : 1 ≤ month ∧ month ≤ 12) : ∃ date, ofCivil? ⟨year, month, 1⟩ = some date := by
  refine (YearMonth.exists_firstDay?_iff (m := ⟨year, month⟩) ⟨hmonth.1, hmonth.2⟩).2 ?_
  rw [YearMonth.number_ofDate_first, YearMonth.number_ofDate_last, YearMonth.number]
  simp only
  omega

namespace Symbol

/-- A text names the contract of the code that it holds, on the first day of the month. -/
theorem ofContractCode?_eq_some_iff {text : String} {market : Exchange} {today : Date}
    {s : Symbol} :
    ofContractCode? text market today = some s ↔ ∃ (code : ContractCode) (expiry : Date),
      code.WellFormed ∧ Text.alphanumerics text = code.chars ∧
        Date.ofCivil? ⟨code.year.resolve today.year, code.month, 1⟩ = some expiry ∧
        s = future (String.ofList code.root) market expiry := by
  have hname : ∀ {code : ContractCode}, code.WellFormed → Text.alphanumerics text = code.chars →
      ContractCode.read? text = some code ∧
        (ContractCode.rootOf text).isEmpty = false ∧
        Text.upper (ContractCode.rootOf text) = String.ofList code.root := by
    intro code hformed hchars
    have hread := ContractCode.read?_eq_some_iff.2 ⟨hformed, hchars⟩
    have hroot : ContractCode.rootOf text = String.ofList code.root := by
      simp [ContractCode.rootOf, hread]
    refine ⟨hread, ?_, ?_⟩
    · rw [hroot]
      simpa using hformed.root
    · rw [hroot, Text.upper_ofList (ContractCode.isCapital_of_alphanumerics_eq hchars)]
  unfold ofContractCode? ContractCode.expiryOf?
  constructor
  · intro h
    simp only [Option.bind_eq_bind, Option.bind_eq_some_iff] at h
    obtain ⟨expiry, ⟨code, hread, hexpiry⟩, h⟩ := h
    obtain ⟨hformed, hchars⟩ := ContractCode.read?_eq_some_iff.1 hread
    obtain ⟨-, hroot, hupper⟩ := hname hformed hchars
    rw [hroot, hupper] at h
    exact ⟨code, expiry, hformed, hchars, hexpiry, (Option.some.inj h).symm⟩
  · rintro ⟨code, expiry, hformed, hchars, hexpiry, rfl⟩
    obtain ⟨hread, hroot, hupper⟩ := hname hformed hchars
    simp only [Option.bind_eq_bind, Option.bind_eq_some_iff]
    refine ⟨expiry, ⟨code, hread, hexpiry⟩, ?_⟩
    rw [hroot, hupper]
    rfl

/-- A contract is displayed by the written form of its code. -/
theorem toList_toText_future (root : List Char) (market : Exchange) (expiry : Date)
    (hyear : 0 ≤ expiry.year) :
    (future (String.ofList root) market expiry).toText.toList =
      (ContractCode.displayed root expiry).chars := by
  have hshort : (shortYear expiry.year).toList =
      (YearDigits.two (expiry.year % 100).toNat).chars := by
    have hmod : expiry.year.tmod 100 = expiry.year % 100 := Int.tmod_eq_emod_of_nonneg hyear
    rw [shortYear, hmod, if_neg (by omega), Date.toList_twoDigits (by omega)]
  simp only [toText, future, String.toList_append, String.toList_ofList, String.toList_singleton,
    hshort]
  simp [ContractCode.displayed, ContractCode.chars]

/-- The display of a contract in the years that two digits can name reads back on any day. -/
theorem ofContractCode?_toText {root : List Char} {expiry : Date} (hroot : root ≠ [])
    (hcapital : ∀ c ∈ root, Text.isCapital c = true) (hfirst : expiry.civil.day = 1)
    (hyear : 1980 ≤ expiry.year ∧ expiry.year ≤ 2079) (market : Exchange) (today : Date) :
    ofContractCode? (future (String.ofList root) market expiry).toText market today =
      some (future (String.ofList root) market expiry) := by
  have hformed : (ContractCode.displayed root expiry).WellFormed :=
    ⟨hroot, ⟨(Calendar.civil_valid expiry.day).1, (Calendar.civil_valid expiry.day).2.1⟩,
      show _ < 100 by omega⟩
  have htext : (future (String.ofList root) market expiry).toText =
      String.ofList (ContractCode.displayed root expiry).chars := by
    rw [← toList_toText_future root market expiry (by omega), String.ofList_toList]
  refine ofContractCode?_eq_some_iff.2
    ⟨ContractCode.displayed root expiry, expiry, hformed, ?_, ?_, rfl⟩
  · rw [htext, Text.alphanumerics_ofList fun c hc =>
      ContractCode.isCapital_of_mem_chars hformed hcapital hc]
  · have hresolve : (ContractCode.displayed root expiry).year.resolve today.year = expiry.year :=
      (YearDigits.resolve_two_iff (by omega) _).2 ⟨hyear, by omega⟩
    have hcivil : (⟨expiry.year, expiry.month, 1⟩ : Calendar.Civil) = expiry.civil := by
      rw [← hfirst]
      rfl
    rw [hresolve]
    exact (congrArg Date.ofCivil? hcivil).trans (Date.ofCivil?_civil expiry)

end Symbol

/-- Reading is inverse to display in the years from 1980 to 2079. Every contract of a root of
capital letters and digits on the first of a month of these years reads back from its display,
whatever the reference date. And what any text was read as reads back from its display, if it lies
in these years; if the text wrote the year with two digits, the display is its letters and digits in
upper case. -/
theorem contract_code_inverse :
    (∀ (root : String) (market : Exchange) (year : Int) (month : Nat) (today : Date),
        root ≠ "" → (∀ c ∈ root.toList, c.isUpper = true ∨ c.isDigit = true) →
        1 ≤ month ∧ month ≤ 12 → 1980 ≤ year ∧ year ≤ 2079 →
          ∃ expiry, Date.ofCivil? ⟨year, month, 1⟩ = some expiry ∧
            Symbol.ofContractCode? (Symbol.future root market expiry).toText market today =
              some (.future root market expiry)) ∧
      ∀ (text : String) (market : Exchange) (today : Date) (s : Symbol),
        Symbol.ofContractCode? text market today = some s →
          ∃ expiry, s.expiry = some expiry ∧ (1980 ≤ expiry.year ∧ expiry.year ≤ 2079 →
            (∀ other, Symbol.ofContractCode? s.toText market other = some s) ∧
            (((Text.alphanumerics text).reverse.takeWhile Char.isDigit).length = 2 →
              s.toText = String.ofList (Text.alphanumerics text))) := by
  constructor
  · intro root market year month today hroot hcapital hmonth hyear
    obtain ⟨expiry, hexpiry⟩ := Date.exists_firstDay hyear hmonth
    have hcivil := Date.civil_of_ofCivil? hexpiry
    refine ⟨expiry, hexpiry, ?_⟩
    have hletters : ∀ c ∈ root.toList, Text.isCapital c = true := fun c hc => by
      simpa [Text.isCapital] using hcapital c hc
    have hread := Symbol.ofContractCode?_toText (by simpa using hroot) hletters
      (show expiry.civil.day = 1 by rw [hcivil]) (by simpa [Date.year, hcivil] using hyear)
      market today
    rwa [String.ofList_toList] at hread
  · intro text market today s h
    obtain ⟨code, expiry, hformed, hchars, hexpiry, rfl⟩ :=
      Symbol.ofContractCode?_eq_some_iff.1 h
    have hcivil := Date.civil_of_ofCivil? hexpiry
    refine ⟨expiry, rfl, fun hyear => ⟨fun other => ?_, fun hdigits => ?_⟩⟩
    · have hcapital := ContractCode.isCapital_of_alphanumerics_eq hchars
      exact Symbol.ofContractCode?_toText hformed.root hcapital (by rw [hcivil]) hyear market other
    · obtain ⟨root, month, year⟩ := code
      rw [hchars, (ContractCode.span_isDigit_chars hformed).1, List.length_reverse] at hdigits
      cases year with
      | one digit => cases hdigits
      | two number =>
          -- the display cuts the year to the digits that it was read from
          have hresolve : (YearDigits.two number).resolve today.year = expiry.year :=
            congrArg (·.year) hcivil.symm
          have hmod := ((YearDigits.resolve_two_iff hformed.year _).1 hresolve).2
          have hdisplayed : ContractCode.displayed root expiry = ⟨root, month, .two number⟩ := by
            simp [ContractCode.displayed, Date.month, hcivil, hmod]
          have htext := Symbol.toList_toText_future root market expiry (by omega)
          rw [hdisplayed] at htext
          rw [hchars, ← htext, String.ofList_toList]

/-- A root that reads like a contract code of its own is displayed and read back, and so is the
contract of a code in another spelling. -/
theorem contract_code_inverse_nested_code :
    (∃ expiry, Date.ofCivil? ⟨1999, 12, 1⟩ = some expiry ∧
        Symbol.ofContractCode? (Symbol.future "ESZ25" .cme expiry).toText .cme default =
          some (.future "ESZ25" .cme expiry)) ∧
      ∃ s expiry, Symbol.ofContractCode? "m2k-z05" .cme default = some s ∧
        s.expiry = some expiry ∧ expiry.year = 2005 ∧
        (∀ other, Symbol.ofContractCode? s.toText .cme other = some s) ∧ s.toText = "M2KZ05" := by
  constructor
  · have hcapital : ∀ c ∈ "ESZ25".toList, c.isUpper = true ∨ c.isDigit = true := by
      simp
    exact contract_code_inverse.1 "ESZ25" .cme 1999 12 default (by decide) hcapital
      (by decide) (by decide)
  · have hread : (Symbol.ofContractCode? "m2k-z05" .cme default).bind (·.expiry.map (·.year)) =
        some 2005 := by
      decide +kernel
    obtain ⟨s, hs, hexpiry⟩ := Option.bind_eq_some_iff.1 hread
    obtain ⟨found, hfound, hyear⟩ := Option.map_eq_some_iff.1 hexpiry
    obtain ⟨expiry, hsame, hrest⟩ := contract_code_inverse.2 "m2k-z05" .cme default s hs
    obtain rfl : found = expiry := Option.some.inj (hfound.symm.trans hsame)
    have hdigits : ((Text.alphanumerics "m2k-z05").reverse.takeWhile Char.isDigit).length = 2 := by
      decide
    have hkept : String.ofList (Text.alphanumerics "m2k-z05") = "M2KZ05" := by decide
    obtain ⟨hback, htext⟩ := hrest (by omega)
    exact ⟨s, found, hs, hfound, hyear, hback, (htext hdigits).trans hkept⟩

end FuturesChains
