import FuturesChains.Proofs.Instrument.ContractCode
import FuturesChains.Text.Bytes

/-!
# The grammar of contract codes

The letters and digits of a text are a contract code if they fall into a root, the letter of a month
and one or two digits (`ContractCode.Cuts`). There is at most one such cut, since the digits at the
end stop at the letter. `contract_code_grammar` says that exactly these texts are read, as the
contract on the first day of the month, and that the root is read off the same cut.

The digits name a year as seen from a reference year (`NamesYear`). One digit names one of ten years
in a row, the first of them two years back or at the start of the reference year's decade, whichever
is later. So a contract of the last two years is named by its digit within a decade and not across
its start: `one_digit_year`.
-/

namespace FuturesChains

namespace Text

theorem byteCount_of_isCapital {cs : List Char} (h : ∀ c ∈ cs, isCapital c = true) :
    byteCount cs = cs.length := by
  induction cs with
  | nil => rfl
  | cons c rest ih =>
      obtain ⟨hc, hrest⟩ := List.forall_mem_cons.1 h
      have hone : c.utf8Size = 1 := by
        rw [Char.utf8Size_eq_one_iff, UInt32.le_iff_toNat_le]
        simp only [isCapital, Char.isUpper, Char.isDigit, Bool.or_eq_true, Bool.and_eq_true,
          decide_eq_true_eq, ge_iff_le, UInt32.le_iff_toNat_le] at hc
        rcases hc with ⟨-, hle⟩ | ⟨-, hle⟩
        · exact hle.trans (by decide)
        · exact hle.trans (by decide)
      rw [byteCount_cons, hone, ih hrest, List.length_cons, Nat.add_comm]

/-- Capital letters and digits take one byte each, so they can be cut behind any number of bytes. -/
theorem cut_of_isCapital {cs : List Char} (h : ∀ c ∈ cs, isCapital c = true) {n : Nat}
    (hn : n ≤ cs.length) :
    firstBytes? n cs = some (cs.take n) ∧ afterBytes? n cs = some (cs.drop n) := by
  have hcount : byteCount (cs.take n) = n := by
    rw [byteCount_of_isCapital fun c hc => h c (List.mem_of_mem_take hc), List.length_take,
      Nat.min_eq_left hn]
  have hfirst := firstBytes?_append (cs.take n) (cs.drop n)
  have hafter := afterBytes?_append (cs.take n) (cs.drop n)
  rw [hcount, List.take_append_drop] at hfirst hafter
  exact ⟨hfirst, hafter⟩

end Text

/-- The first of the ten years that one digit can name: two years back, but in no earlier decade. -/
def earliestYear (reference : Int) : Int := max (reference - 2) (reference - reference % 10)

/-- The year that one or two digits name, seen from a reference year. -/
structure NamesYear (digits : List Char) (reference year : Int) : Prop where
  ending : year % 10 ^ digits.length = Date.digitsValue digits
  two : digits.length = 2 → 1980 ≤ year ∧ year ≤ 2079
  one : digits.length = 1 → earliestYear reference ≤ year ∧ year < earliestYear reference + 10

/-- One digit names the year that ends in it among ten years in a row. -/
theorem YearDigits.resolve_one_iff {digit : Nat} (hdigit : digit < 10) {year reference : Int} :
    (YearDigits.one digit).resolve reference = year ↔
      (earliestYear reference ≤ year ∧ year < earliestYear reference + 10) ∧ year % 10 = digit := by
  simp only [resolve, earliestYear]
  split
  · omega
  · omega

/-- The year that digits name is the one that they are resolved to. -/
theorem YearDigits.namesYear_iff {digits : YearDigits} (hvalid : digits.Valid)
    {reference year : Int} :
    NamesYear digits.chars reference year ↔ digits.resolve reference = year := by
  have hvalue := digitsValue_chars hvalid
  cases digits with
  | one digit =>
      rw [resolve_one_iff hvalid]
      constructor
      · rintro ⟨hending, -, hone⟩
        rw [hvalue] at hending
        exact ⟨hone rfl, hending⟩
      · rintro ⟨hone, hending⟩
        refine ⟨?_, nofun, fun _ => hone⟩
        rw [hvalue]
        exact hending
  | two number =>
      rw [resolve_two_iff hvalid]
      constructor
      · rintro ⟨hending, htwo, -⟩
        rw [hvalue] at hending
        exact ⟨htwo rfl, hending⟩
      · rintro ⟨htwo, hending⟩
        refine ⟨?_, fun _ => htwo, nofun⟩
        rw [hvalue]
        exact hending

namespace ContractCode

/-- Letters and digits fall into a root that is not empty, the letter of a month and one or two
digits. -/
structure Cuts (cs root : List Char) (letter : Char) (digits : List Char) : Prop where
  eq : cs = root ++ letter :: digits
  root_ne_nil : root ≠ []
  letter_mem : letter ∈ monthLetters
  length_digits : digits.length = 1 ∨ digits.length = 2
  isDigit : ∀ c ∈ digits, c.isDigit = true

variable {cs root root' digits digits' : List Char} {letter letter' : Char}

/-- The letter of a month is at the month's place. -/
theorem idxOf_monthLetter {month : Nat} (h : 1 ≤ month ∧ month ≤ 12) :
    monthLetter month ∈ monthLetters ∧ monthLetters.idxOf (monthLetter month) + 1 = month := by
  obtain ⟨hfirst, hlast⟩ := h
  interval_cases month <;> decide

/-- A code that is written is cut into its parts. -/
theorem WellFormed.cuts {code : ContractCode} (h : code.WellFormed) :
    Cuts code.chars code.root (monthLetter code.month) code.year.chars where
  eq := rfl
  root_ne_nil := h.root
  letter_mem := (idxOf_monthLetter h.month).1
  length_digits := by
    cases code.year with
    | one digit => exact .inl rfl
    | two number => exact .inr rfl
  isDigit := fun _ => YearDigits.isDigit_of_mem_chars h.year

/-- The parts of a cut are those of a code. -/
theorem Cuts.exists_code (h : Cuts cs root letter digits) :
    ∃ code : ContractCode, code.WellFormed ∧ code.root = root ∧ monthLetter code.month = letter ∧
      code.year.chars = digits := by
  have hback : ∀ c ∈ digits.reverse, c.isDigit = true := fun c hc =>
    h.isDigit c (List.mem_reverse.1 hc)
  have hread : ∃ year, yearDigits? digits.reverse = some year := by
    rcases h.length_digits with hlength | hlength
    · obtain ⟨units, rfl⟩ := List.length_eq_one_iff.1 hlength
      exact ⟨_, rfl⟩
    · obtain ⟨tens, units, rfl⟩ := List.length_eq_two.1 hlength
      exact ⟨_, rfl⟩
  obtain ⟨year, hyear⟩ := hread
  obtain ⟨hvalid, hchars⟩ := (yearDigits?_eq_some_iff hback).1 hyear
  obtain ⟨i, hi, rfl⟩ := List.getElem_of_mem h.letter_mem
  refine ⟨⟨root, i + 1, year⟩, ⟨h.root_ne_nil, ⟨Nat.le_add_left 1 i, hi⟩, hvalid⟩, rfl, ?_, ?_⟩
  · simp [monthLetter, hi]
  · exact (List.reverse_injective hchars).symm

/-- The digits at the end of a cut are its own, and in front of them stands its letter. -/
theorem Cuts.span_isDigit (h : Cuts cs root letter digits) :
    cs.reverse.takeWhile Char.isDigit = digits.reverse ∧
      cs.reverse.dropWhile Char.isDigit = letter :: root.reverse := by
  obtain ⟨code, hformed, rfl, rfl, rfl⟩ := h.exists_code
  obtain rfl := h.eq
  exact span_isDigit_chars hformed

/-- The digits of a cut name one year, whatever the reference year. -/
theorem Cuts.existsUnique_year (h : Cuts cs root letter digits) (reference : Int) :
    ∃! year, NamesYear digits reference year := by
  obtain ⟨code, hformed, -, -, rfl⟩ := h.exists_code
  refine ⟨code.year.resolve reference, (YearDigits.namesYear_iff hformed.year).2 rfl, ?_⟩
  intro year hyear
  exact ((YearDigits.namesYear_iff hformed.year).1 hyear).symm

/-- A cut ends in one or two digits, and has more in front of them than a letter. -/
theorem Cuts.length_ending (h : Cuts cs root letter digits) :
    ((cs.reverse.takeWhile Char.isDigit).length = 1 ∨
      (cs.reverse.takeWhile Char.isDigit).length = 2) ∧
      (cs.reverse.takeWhile Char.isDigit).length + 1 < cs.length := by
  have hroot := List.length_pos_iff.2 h.root_ne_nil
  have hlength : cs.length = root.length + (digits.length + 1) := by
    rw [h.eq, List.length_append, List.length_cons]
  rw [h.span_isDigit.1, List.length_reverse]
  exact ⟨h.length_digits, by omega⟩

/-- Nothing is cut in two ways. -/
theorem Cuts.unique (h : Cuts cs root letter digits) (h' : Cuts cs root' letter' digits') :
    root = root' ∧ letter = letter' ∧ digits = digits' := by
  obtain ⟨htake, hdrop⟩ := h.span_isDigit
  obtain ⟨htake', hdrop'⟩ := h'.span_isDigit
  rw [htake] at htake'
  rw [hdrop, List.cons.injEq] at hdrop'
  exact ⟨List.reverse_injective hdrop'.2, hdrop'.1, List.reverse_injective htake'⟩

/-- A text is read as the code of its cut. -/
theorem read?_eq_some_of_cuts {text : String}
    (h : Cuts (Text.alphanumerics text) root letter digits) :
    ∃ code, read? text = some code ∧ code.root = root := by
  obtain ⟨code, hformed, rfl, rfl, rfl⟩ := h.exists_code
  exact ⟨code, read?_eq_some_iff.2 ⟨hformed, h.eq⟩, rfl⟩

end ContractCode

namespace Symbol

/-- A text names the contract of its cut, on the first day of the month that the letter and the
digits name. -/
theorem ofContractCode?_eq_some_iff_cuts {text : String} {market : Exchange} {today : Date}
    {s : Symbol} :
    ofContractCode? text market today = some s ↔ ∃ root letter digits year expiry,
      ContractCode.Cuts (Text.alphanumerics text) root letter digits ∧
        NamesYear digits today.year year ∧
        Date.ofCivil? ⟨year, monthLetters.idxOf letter + 1, 1⟩ = some expiry ∧
        s = future (String.ofList root) market expiry := by
  rw [ofContractCode?_eq_some_iff]
  constructor
  · rintro ⟨code, expiry, hformed, hchars, hexpiry, rfl⟩
    refine ⟨code.root, monthLetter code.month, code.year.chars, _, expiry, ?_,
      (YearDigits.namesYear_iff hformed.year).2 rfl, ?_, rfl⟩
    · rw [hchars]
      exact hformed.cuts
    · rw [(ContractCode.idxOf_monthLetter hformed.month).2]
      exact hexpiry
  · rintro ⟨root, letter, digits, year, expiry, hcut, hyear, hexpiry, rfl⟩
    obtain ⟨code, hformed, rfl, rfl, rfl⟩ := hcut.exists_code
    obtain rfl := (YearDigits.namesYear_iff hformed.year).1 hyear
    rw [(ContractCode.idxOf_monthLetter hformed.month).2] at hexpiry
    exact ⟨code, expiry, hformed, hcut.eq, hexpiry, rfl⟩

/-- A text with a cut names the contract of the month and the year that the cut names, if the
calendar has the first day of the month. -/
theorem ofContractCode?_of_cuts {text : String} {today : Date} {root digits : List Char}
    {letter : Char} {year : Int}
    (hcut : ContractCode.Cuts (Text.alphanumerics text) root letter digits)
    (hyear : NamesYear digits today.year year) (market : Exchange) :
    ofContractCode? text market today =
      (Date.ofCivil? ⟨year, monthLetters.idxOf letter + 1, 1⟩).map
        (future (String.ofList root) market) := by
  refine Option.ext fun s => ?_
  rw [ofContractCode?_eq_some_iff_cuts, Option.map_eq_some_iff]
  constructor
  · rintro ⟨root', letter', digits', year', expiry, hcut', hyear', hexpiry, rfl⟩
    obtain ⟨rfl, rfl, rfl⟩ := hcut.unique hcut'
    obtain rfl := (hcut.existsUnique_year today.year).unique hyear hyear'
    exact ⟨expiry, hexpiry, rfl⟩
  · rintro ⟨expiry, hexpiry, rfl⟩
    exact ⟨root, letter, digits, year, expiry, hcut, hyear, hexpiry, rfl⟩

end Symbol

/-- The letters and digits of a text, in upper case, are read as a contract code exactly if they are
cut into a root, the letter of a month and one or two digits, and the calendar has the first day of
the month that letter and digits name; the contract is the root's on that day. There is at most one
cut, and its digits name one year. The root of a text is that of its cut, whatever the year, and
without a cut all of its letters and digits. So nothing is read that ends in no digit or in more
than two, or that has nothing in front of the letter. And letters and digits can be cut behind any
number of bytes. -/
theorem contract_code_grammar (text : String) :
    let cs := Text.alphanumerics text
    let ending := (cs.reverse.takeWhile Char.isDigit).length
    (∀ market today s, Symbol.ofContractCode? text market today = some s ↔
      ∃ root letter digits year expiry, ContractCode.Cuts cs root letter digits ∧
        NamesYear digits today.year year ∧
        Date.ofCivil? ⟨year, monthLetters.idxOf letter + 1, 1⟩ = some expiry ∧
        s = .future (String.ofList root) market expiry) ∧
      (∀ root letter digits, ContractCode.Cuts cs root letter digits →
        ∀ reference, ∃! year, NamesYear digits reference year) ∧
      (∀ root letter digits root' letter' digits', ContractCode.Cuts cs root letter digits →
        ContractCode.Cuts cs root' letter' digits' →
          root = root' ∧ letter = letter' ∧ digits = digits') ∧
      (∀ root letter digits, ContractCode.Cuts cs root letter digits →
        ContractCode.rootOf text = String.ofList root) ∧
      ((¬ ∃ root letter digits, ContractCode.Cuts cs root letter digits) →
        ContractCode.rootOf text = String.ofList cs) ∧
      (ending = 0 ∨ 3 ≤ ending ∨ cs.length ≤ ending + 1 →
        ∀ market today, Symbol.ofContractCode? text market today = none) ∧
      ∀ n, n ≤ cs.length →
        Text.firstBytes? n cs = some (cs.take n) ∧ Text.afterBytes? n cs = some (cs.drop n) := by
  intro cs ending
  refine ⟨fun market today s => Symbol.ofContractCode?_eq_some_iff_cuts,
    fun root letter digits => ContractCode.Cuts.existsUnique_year,
    fun root letter digits root' letter' digits' => ContractCode.Cuts.unique, ?_, ?_, ?_,
    fun n hn => Text.cut_of_isCapital (fun _ => Text.isCapital_of_mem_alphanumerics) hn⟩
  · intro root letter digits hcut
    obtain ⟨code, hread, rfl⟩ := ContractCode.read?_eq_some_of_cuts hcut
    simp only [ContractCode.rootOf, hread]
  · intro hnone
    have hread : ContractCode.read? text = none := by
      rw [Option.eq_none_iff_forall_ne_some]
      intro code hread
      obtain ⟨hformed, hchars⟩ := ContractCode.read?_eq_some_iff.1 hread
      exact hnone ⟨_, _, _, hchars ▸ hformed.cuts⟩
    simp only [ContractCode.rootOf, hread]
    rfl
  · intro hending market today
    rw [Option.eq_none_iff_forall_ne_some]
    intro s hread
    obtain ⟨root, letter, digits, year, expiry, hcut, -⟩ :=
      Symbol.ofContractCode?_eq_some_iff_cuts.1 hread
    obtain ⟨htwo, hlength⟩ : (ending = 1 ∨ ending = 2) ∧ ending + 1 < cs.length :=
      hcut.length_ending
    omega

/-- In October 2026 a code in lower case, with a hyphen and one digit is read by its cut, from which
its root is taken too. A code that ends in three digits is not read. -/
theorem contract_code_grammar_spelling :
    let today : Date := { day := 20742 }
    let cs := Text.alphanumerics "m2k-z5"
    ContractCode.Cuts cs ['M', '2', 'K'] 'Z' ['5'] ∧ NamesYear ['5'] today.year 2025 ∧
      Symbol.ofContractCode? "m2k-z5" .cme today =
        some (.future "M2K" .cme { day := 20423 }) ∧
      ContractCode.rootOf "m2k-z5" = "M2K" ∧
      (Text.alphanumerics "ESZ125").length = 6 ∧
      Symbol.ofContractCode? "ESZ125" .cme today = none := by
  intro today cs
  have hcut : ContractCode.Cuts cs ['M', '2', 'K'] 'Z' ['5'] :=
    ⟨by decide, by decide, by decide, .inl rfl, by simp⟩
  have htoday : today.year = 2026 := by cbv
  have hyear : NamesYear ['5'] today.year 2025 := by
    rw [htoday]
    exact ⟨by decide, by decide, by decide⟩
  have hexpiry : Date.ofCivil? ⟨2025, monthLetters.idxOf 'Z' + 1, 1⟩ = some { day := 20423 } := by
    decide
  obtain ⟨hread, -, -, hroot, -⟩ := contract_code_grammar "m2k-z5"
  obtain ⟨-, -, -, -, -, hrefused, -⟩ := contract_code_grammar "ESZ125"
  refine ⟨hcut, hyear, (hread .cme today _).2 ⟨_, _, _, _, _, hcut, hyear, hexpiry, rfl⟩,
    hroot _ _ _ hcut, by decide, hrefused (.inr (.inl (by decide))) .cme today⟩

/-- One digit names a year that is not before the two last ones. A contract year of those three, the
reference year among them, is the year that its last digit names if both years lie in one decade,
and otherwise the digit names the year ten years later. The text is read as the contract of the year
that is named, if the calendar has it. -/
theorem one_digit_year (text : String) (market : Exchange) (today : Date) {root : List Char}
    {letter digit : Char} (hcut : ContractCode.Cuts (Text.alphanumerics text) root letter [digit]) :
    ∃ year, today.year - 2 ≤ year ∧
      (∀ issued : Int, issued % 10 = Date.digitsValue [digit] → issued ≤ today.year →
        today.year ≤ issued + 2 →
          year = if issued / 10 = today.year / 10 then issued else issued + 10) ∧
      Symbol.ofContractCode? text market today =
        (Date.ofCivil? ⟨year, monthLetters.idxOf letter + 1, 1⟩).map
          (.future (String.ofList root) market) ∧
      ∀ s, Symbol.ofContractCode? text market today = some s →
        ∃ expiry, s.expiry = some expiry ∧ expiry.year = year := by
  obtain ⟨year, hyear, -⟩ := hcut.existsUnique_year today.year
  obtain ⟨hlow, hhigh⟩ := hyear.one rfl
  have hending : year % 10 = Date.digitsValue [digit] := hyear.ending
  have hread := Symbol.ofContractCode?_of_cuts hcut hyear market
  unfold earliestYear at hlow hhigh
  refine ⟨year, by omega, ?_, hread, ?_⟩
  · intro issued hissued hpast hrecent
    -- the ten years begin two years back, or with the decade if it began later than that
    split
    · omega
    · omega
  · intro s hs
    obtain ⟨expiry, hexpiry, rfl⟩ := Option.map_eq_some_iff.1 (hread.symm.trans hs)
    exact ⟨expiry, rfl, by rw [Date.year, Date.civil_of_ofCivil? hexpiry]⟩

/-- In June 2021 the digit of last December names 2020, and that of the December before names 2029,
since 2019 is of another decade. -/
theorem one_digit_year_after_decade_start :
    let today : Date := { day := 18779 }
    ContractCode.Cuts (Text.alphanumerics "CLZ0") ['C', 'L'] 'Z' ['0'] ∧
      Symbol.ofContractCode? "CLZ0" .nymex today = some (.future "CL" .nymex { day := 18597 }) ∧
      ContractCode.Cuts (Text.alphanumerics "CLZ9") ['C', 'L'] 'Z' ['9'] ∧
      Symbol.ofContractCode? "CLZ9" .nymex today = some (.future "CL" .nymex { day := 21884 }) := by
  intro today
  have htoday : today.year = 2021 := by cbv
  have hcut : ∀ digit, digit.isDigit = true →
      ContractCode.Cuts ['C', 'L', 'Z', digit] ['C', 'L'] 'Z' [digit] := fun digit hdigit =>
    ⟨rfl, by decide, by decide, .inl rfl, by simpa using hdigit⟩
  have hcut0 : ContractCode.Cuts (Text.alphanumerics "CLZ0") ['C', 'L'] 'Z' ['0'] :=
    hcut '0' (by decide)
  have hcut9 : ContractCode.Cuts (Text.alphanumerics "CLZ9") ['C', 'L'] 'Z' ['9'] :=
    hcut '9' (by decide)
  refine ⟨hcut0, ?_, hcut9, ?_⟩
  · obtain ⟨year, -, hissued, hread, -⟩ := one_digit_year "CLZ0" .nymex today hcut0
    rw [htoday] at hissued
    obtain rfl : year = 2020 := hissued 2020 (by decide) (by decide) (by decide)
    have hexpiry : Date.ofCivil? ⟨2020, monthLetters.idxOf 'Z' + 1, 1⟩ = some { day := 18597 } := by
      decide
    rw [hread, hexpiry]
    rfl
  · obtain ⟨year, -, hissued, hread, -⟩ := one_digit_year "CLZ9" .nymex today hcut9
    rw [htoday] at hissued
    obtain rfl : year = 2029 := hissued 2019 (by decide) (by decide) (by decide)
    have hexpiry : Date.ofCivil? ⟨2029, monthLetters.idxOf 'Z' + 1, 1⟩ = some { day := 21884 } := by
      decide
    rw [hread, hexpiry]
    rfl

/-- In January 2020 the digit of last December does not name 2019, but 2029. -/
theorem one_digit_year_across_decades :
    let today : Date := { day := 18276 }
    let december : Date := { day := 21884 }
    ContractCode.Cuts (Text.alphanumerics "CLZ9") ['C', 'L'] 'Z' ['9'] ∧
      Symbol.ofContractCode? "CLZ9" .nymex today = some (.future "CL" .nymex december) ∧
      ¬ ∀ issued : Int, issued % 10 = Date.digitsValue ['9'] → issued ≤ today.year →
        today.year ≤ issued + 2 → december.year = issued := by
  intro today december
  have htoday : today.year = 2020 := by cbv
  have hdecember : december.year = 2029 := by cbv
  refine ⟨⟨by decide, by decide, by decide, .inl rfl, by simp⟩, by decide +kernel, fun h => ?_⟩
  rw [htoday, hdecember] at h
  exact absurd (h 2019 (by decide) (by decide) (by decide)) (by decide)

end FuturesChains
