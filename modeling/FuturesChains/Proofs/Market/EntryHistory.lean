import Mathlib
import FuturesChains.Market.Properties

/-!
# Metadata by the history of insertions

What a metadata table answers is decided by the insertions that made it. `MetadataInsertion.last?`
is the last entry that some of them gave, and `MetadataInsertion.standing?` the last one for a root,
in any case of its letters, or else the last wildcard. A table keeps one entry for each key, with
roots in upper case, and `MetadataTable.lookup?_ofInsertions` says that its answer to a symbol is
the entry that stands for the symbol's root.
-/

namespace FuturesChains

/-- Texts agree in upper case exactly if they agree in lower case. -/
theorem Text.upper_eq_upper_iff {left right : String} :
    upper left = upper right ↔ lower left = lower right := by
  have hlower : ∀ cs : List Char, (cs.map Char.toUpper).map Char.toLower = cs.map Char.toLower := by
    intro cs
    simp
  have hupper : ∀ cs : List Char, (cs.map Char.toLower).map Char.toUpper = cs.map Char.toUpper := by
    intro cs
    simp
  simp only [upper, lower, String.ofList_inj]
  constructor
  · intro h
    rw [← hlower, h, hlower]
  · intro h
    rw [← hupper, h, hupper]

/-- An entry that is put into a table, for a root of a market and kind or, without one, for all of
their roots. -/
structure MetadataInsertion (α : Type) where
  market : Exchange
  root : Option String
  kind : Kind
  entry : α

namespace MetadataInsertion

variable {α : Type} {market : Exchange} {root : String} {kind : Kind}

/-- What the entry is kept under: the market, the root in upper case or the wildcard, and the
kind. -/
def key (i : MetadataInsertion α) : MetadataKey := ⟨i.market, i.root.map Text.upper, i.kind⟩

/-- The insertion is for a root of a market and kind, in any case of its letters. -/
def isFor (market : Exchange) (root : String) (kind : Kind) (i : MetadataInsertion α) : Bool :=
  i.market = market && i.kind = kind && i.root.any (Text.lower · = Text.lower root)

/-- The insertion is for all roots of a market and kind. -/
def isForAll (market : Exchange) (kind : Kind) (i : MetadataInsertion α) : Bool :=
  i.market = market && i.kind = kind && i.root.isNone

/-- The entry of the last insertion of a sort. -/
def last? (sort : MetadataInsertion α → Bool) (history : List (MetadataInsertion α)) : Option α :=
  (history.reverse.find? sort).map (·.entry)

/-- The entry that stands for a root of a market and kind: the last one for the root, or if there is
none the last one for all roots. -/
def standing? (market : Exchange) (root : String) (kind : Kind)
    (history : List (MetadataInsertion α)) : Option α :=
  (last? (isFor market root kind) history).or (last? (isForAll market kind) history)

/-- One more insertion: it gives the last entry of its own sorts. -/
theorem last?_concat (sort : MetadataInsertion α → Bool) (history : List (MetadataInsertion α))
    (i : MetadataInsertion α) :
    last? sort (history ++ [i]) = if sort i then some i.entry else last? sort history := by
  simp only [last?, List.reverse_append, List.reverse_singleton, List.singleton_append,
    List.find?_cons]
  cases sort i with
  | true => rfl
  | false => rfl

/-- An insertion of another sort, wherever it is made, changes nothing. -/
theorem last?_of_not_sort {sort : MetadataInsertion α → Bool}
    (before after : List (MetadataInsertion α)) {i : MetadataInsertion α} (h : sort i = false) :
    last? sort (before ++ i :: after) = last? sort (before ++ after) := by
  simp [last?, h]

theorem isSome_last?_iff {sort : MetadataInsertion α → Bool}
    {history : List (MetadataInsertion α)} :
    (last? sort history).isSome = true ↔ ∃ i ∈ history, sort i = true := by
  simp [last?]

/-- An insertion for another root is of no account, and the empty root is one like any other. -/
theorem standing?_of_other_root (before after : List (MetadataInsertion α))
    {i : MetadataInsertion α} {other : String} (hroot : i.root = some other)
    (hother : Text.lower other ≠ Text.lower root) :
    standing? market root kind (before ++ i :: after) =
      standing? market root kind (before ++ after) := by
  have hown : i.isFor market root kind = false := by simp [isFor, hroot, hother]
  have hall : i.isForAll market kind = false := by simp [isForAll, hroot]
  rw [standing?, standing?, last?_of_not_sort before after hown,
    last?_of_not_sort before after hall]

/-- A wildcard, before or after them, is of no account where there are entries for the root. -/
theorem standing?_of_wildcard (before after : List (MetadataInsertion α))
    {i : MetadataInsertion α} (hroot : i.root = none)
    (hown : ∃ own ∈ before ++ after, own.isFor market root kind = true) :
    standing? market root kind (before ++ i :: after) =
      standing? market root kind (before ++ after) := by
  have hwildcard : i.isFor market root kind = false := by simp [isFor, hroot]
  have hsome := isSome_last?_iff.2 hown
  rw [standing?, standing?, last?_of_not_sort before after hwildcard, Option.or_of_isSome hsome,
    Option.or_of_isSome hsome]

/-- A symbol's own key holds the insertions for its root. -/
theorem key_eq_ofSymbol_iff {i : MetadataInsertion α} {s : Symbol} :
    i.key = .ofSymbol market s kind ↔ i.isFor market s.id kind = true := by
  obtain ⟨market', root', kind', entry⟩ := i
  cases root' with
  | none => simp [key, isFor, MetadataKey.ofSymbol, MetadataKey.ofRoot]
  | some root' =>
      simp [key, isFor, MetadataKey.ofSymbol, MetadataKey.ofRoot, Text.upper_eq_upper_iff,
        and_assoc, and_comm]

/-- The wildcard of its key holds the insertions for all roots. -/
theorem key_eq_wildcard_iff {i : MetadataInsertion α} {s : Symbol} :
    i.key = (MetadataKey.ofSymbol market s kind).wildcard ↔ i.isForAll market kind = true := by
  obtain ⟨market', root', kind', entry⟩ := i
  cases root' with
  | none => simp [key, isForAll, MetadataKey.ofSymbol, MetadataKey.ofRoot, MetadataKey.wildcard]
  | some root' =>
      simp [key, isForAll, MetadataKey.ofSymbol, MetadataKey.ofRoot, MetadataKey.wildcard]

end MetadataInsertion

namespace MetadataTable

open MetadataInsertion

variable {α : Type} {history : List (MetadataInsertion α)}

/-- The table that some insertions make. -/
def ofInsertions (history : List (MetadataInsertion α)) : MetadataTable α :=
  history.foldl (fun t i => t.insert i.market i.root i.kind i.entry) empty

theorem ofInsertions_concat (history : List (MetadataInsertion α)) (i : MetadataInsertion α) :
    ofInsertions (history ++ [i]) = (ofInsertions history).put i.key i.entry :=
  List.foldl_concat ..

/-- Under each key is the last entry that was inserted for it. -/
theorem find?_ofInsertions (history : List (MetadataInsertion α)) (key : MetadataKey) :
    (ofInsertions history).find? key = last? (·.key = key) history := by
  induction history using List.reverseRecOn with
  | nil => rfl
  | append_singleton history i ih =>
      rw [ofInsertions_concat, last?_concat]
      by_cases hkey : i.key = key
      · subst hkey
        rw [find?_put_self, if_pos (decide_eq_true rfl)]
      · rw [find?_put_of_ne _ _ (Ne.symm hkey), ih, if_neg (by simpa using hkey)]

/-- A look-up finds the entry that stands for the symbol's root. -/
theorem lookup?_ofInsertions (history : List (MetadataInsertion α)) (market : Exchange)
    (s : Symbol) (kind : Kind) :
    (ofInsertions history).lookup? market s kind = standing? market s.id kind history := by
  simp only [lookup?, find?_ofInsertions, key_eq_ofSymbol_iff, key_eq_wildcard_iff,
    Bool.decide_eq_true]
  rfl

/-- The keys that a table has entries under. -/
def keys (t : MetadataTable α) : List MetadataKey := t.entries.map (·.1)

theorem keys_put (t : MetadataTable α) (key : MetadataKey) (entry : α) :
    (t.put key entry).keys = key :: t.keys.filter (· ≠ key) := by
  simp only [keys, put, List.map_cons, List.filter_map]
  rfl

/-- The table has each key of the insertions once, and no others. -/
theorem keys_ofInsertions (history : List (MetadataInsertion α)) :
    (ofInsertions history).keys.Nodup ∧
      ∀ key, key ∈ (ofInsertions history).keys ↔ key ∈ history.map (·.key) := by
  induction history using List.reverseRecOn with
  | nil => exact ⟨List.nodup_nil, fun _ => Iff.rfl⟩
  | append_singleton history i ih =>
      obtain ⟨hnodup, hmem⟩ := ih
      rw [ofInsertions_concat, keys_put]
      refine ⟨List.nodup_cons.2 ⟨by simp, hnodup.filter _⟩, fun key => ?_⟩
      by_cases hkey : key = i.key
      · simp [hkey]
      · simp [hkey, hmem]

/-- The size of the table is the number of distinct keys that were inserted. -/
theorem size_ofInsertions (history : List (MetadataInsertion α)) :
    (ofInsertions history).size = (history.map (·.key)).toFinset.card := by
  obtain ⟨hnodup, hmem⟩ := keys_ofInsertions history
  calc (ofInsertions history).size = (ofInsertions history).keys.length := (List.length_map _).symm
    _ = (ofInsertions history).keys.toFinset.card := (List.toFinset_card_of_nodup hnodup).symm
    _ = (history.map (·.key)).toFinset.card := by
      congr 1
      ext key
      rw [List.mem_toFinset, List.mem_toFinset, hmem]

/-- A look-up finds something exactly if there was an insertion for the symbol's key or for the
wildcard of it. -/
theorem isSome_lookup?_ofInsertions_iff {market : Exchange} {s : Symbol} {kind : Kind} :
    ((ofInsertions history).lookup? market s kind).isSome = true ↔
      .ofSymbol market s kind ∈ history.map (·.key) ∨
        (MetadataKey.ofSymbol market s kind).wildcard ∈ history.map (·.key) := by
  simp only [lookup?, find?_ofInsertions, Option.isSome_or, Bool.or_eq_true, isSome_last?_iff,
    decide_eq_true_eq, List.mem_map]

/-- What a table shows of the insertions that made it: a look-up finds the entry that stands for the
symbol's root and looks at nothing else of the symbol, insertions for other roots, the empty one
included, and wildcards beside entries for the root are of no account, and the size counts the
keys. -/
structure Follows (t : MetadataTable α) (history : List (MetadataInsertion α)) : Prop where
  lookup?_eq : ∀ market (s : Symbol) kind,
    t.lookup? market s kind = standing? market s.id kind history
  same_letters : ∀ market (s other : Symbol) kind, Text.lower s.id = Text.lower other.id →
    t.lookup? market s kind = t.lookup? market other kind
  other_root : ∀ before i after root, history = before ++ i :: after → i.root = some root →
    ∀ market (s : Symbol) kind, Text.lower root ≠ Text.lower s.id →
      t.lookup? market s kind = (ofInsertions (before ++ after)).lookup? market s kind
  wildcard : ∀ before i after, history = before ++ i :: after → i.root = none →
    ∀ market (s : Symbol) kind,
      (∃ own ∈ before ++ after, own.isFor market s.id kind = true) →
        t.lookup? market s kind = (ofInsertions (before ++ after)).lookup? market s kind
  size_eq : t.size = (history.map (·.key)).toFinset.card

theorem follows_ofInsertions (history : List (MetadataInsertion α)) :
    (ofInsertions history).Follows history where
  lookup?_eq := lookup?_ofInsertions history
  same_letters := by
    intro market s other kind hletters
    have hkey : MetadataKey.ofSymbol market s kind = .ofSymbol market other kind := by
      simp [MetadataKey.ofSymbol, MetadataKey.ofRoot, Text.upper_eq_upper_iff.2 hletters]
    simp only [lookup?, hkey]
  other_root := by
    rintro before i after root rfl hroot market s kind hother
    rw [lookup?_ofInsertions, lookup?_ofInsertions,
      standing?_of_other_root before after hroot hother]
  wildcard := by
    rintro before i after rfl hroot market s kind hown
    rw [lookup?_ofInsertions, lookup?_ofInsertions, standing?_of_wildcard before after hroot hown]
  size_eq := size_ofInsertions history

end MetadataTable

/-- The insertions of the exchanges' usual hours. -/
def HoursTable.usual : List (MetadataInsertion HoursEntry) :=
  Exchange.all.map fun market =>
    ⟨market, none, .future, ⟨.ofExchange market, (MarketHours.ofExchange market).zone⟩⟩

/-- What is inserted into the table of the usual hours comes after these. -/
theorem HoursTable.ofInsertions_usual_append (history : List (MetadataInsertion HoursEntry)) :
    MetadataTable.ofInsertions (HoursTable.usual ++ history) =
      history.foldl (fun t i => t.insert i.market i.root i.kind i.entry) ofExchanges := by
  rw [MetadataTable.ofInsertions, List.foldl_append, HoursTable.usual, List.foldl_map]
  rfl

section

variable {market : Exchange} {s : Symbol} {kind : Kind} {account : Currency}

/-- The hours of a symbol are missing exactly if nothing is found for it. -/
theorem HoursTable.hours_eq_error_iff {t : HoursTable} :
    t.hours market s kind = .error (.unknownHours market s kind) ↔
      t.lookup? market s kind = none := by
  unfold HoursTable.hours
  cases t.lookup? market s kind with
  | some entry => simp
  | none => simp

/-- So are the properties of a symbol: an entry whose tick has no value is not a missing one. -/
theorem PropertyTable.properties_eq_error_iff {t : PropertyTable} :
    t.properties market s kind account = .ok (.error (.unknownProperties market s kind)) ↔
      t.lookup? market s kind = none := by
  unfold PropertyTable.properties
  cases t.lookup? market s kind with
  | some entry =>
      cases hresolve : entry.resolve? account <;> simp [hresolve, Halt.orStop, Except.map]
  | none => simp

end

/-- Tables of hours and of properties follow the insertions that made them. The hours of a symbol
are the entry that stands for its root, and its properties are the row that stands for it, resolved
for the account; where nothing stands for the root, the error names the market, the symbol and the
kind. So with insertions for the same keys both tables have an entry or both miss it. -/
theorem metadata_follows_insertions (hoursHistory : List (MetadataInsertion HoursEntry))
    (propertyHistory : List (MetadataInsertion PropertyEntry)) :
    let hours : HoursTable := .ofInsertions hoursHistory
    let properties : PropertyTable := .ofInsertions propertyHistory
    hours.Follows hoursHistory ∧ properties.Follows propertyHistory ∧
      (∀ market s kind, HoursTable.hours hours market s kind =
        match MetadataInsertion.standing? market s.id kind hoursHistory with
        | some entry => .ok entry
        | none => .error (.unknownHours market s kind)) ∧
      (∀ market s kind account, PropertyTable.properties properties market s kind account =
        match MetadataInsertion.standing? market s.id kind propertyHistory with
        | some entry => (Halt.productTooLarge.orStop (entry.resolve? account)).map .ok
        | none => .ok (.error (.unknownProperties market s kind))) ∧
      (hoursHistory.map (·.key) = propertyHistory.map (·.key) → ∀ market s kind account,
        (hours.lookup? market s kind).isSome = (properties.lookup? market s kind).isSome ∧
        (HoursTable.hours hours market s kind = .error (.unknownHours market s kind) ↔
          PropertyTable.properties properties market s kind account =
            .ok (.error (.unknownProperties market s kind)))) := by
  intro hours properties
  have hhours := MetadataTable.follows_ofInsertions hoursHistory
  have hproperties := MetadataTable.follows_ofInsertions propertyHistory
  refine ⟨hhours, hproperties, ?_, ?_, fun hkeys market s kind account => ?_⟩
  · intro market s kind
    rw [← hhours.lookup?_eq]
    rfl
  · intro market s kind account
    rw [← hproperties.lookup?_eq, PropertyTable.properties]
    cases properties.lookup? market s kind with
    | some entry => rfl
    | none => rfl
  · have hfound : (hours.lookup? market s kind).isSome =
        (properties.lookup? market s kind).isSome := by
      rw [Bool.eq_iff_iff, MetadataTable.isSome_lookup?_ofInsertions_iff,
        MetadataTable.isSome_lookup?_ofInsertions_iff, hkeys]
    refine ⟨hfound, ?_⟩
    rw [HoursTable.hours_eq_error_iff, PropertyTable.properties_eq_error_iff,
      ← Option.isNone_iff_eq_none, ← Option.isNone_iff_eq_none, ← Option.not_isSome,
      ← Option.not_isSome, hfound]

/-- To the usual hours of the exchanges are added hours of crude oil, in small letters, hours of the
empty root, and a wildcard after both. Crude oil is found by its root whatever else its symbol says,
the empty root has its own hours, and natural gas has those of the later wildcard. There are none
for stocks, nor properties if these were inserted for the same keys. -/
theorem metadata_follows_insertions_crude_oil :
    let stamped (zone : Zone) : HoursEntry := ⟨.ofExchange .nymex, zone⟩
    let hoursHistory : List (MetadataInsertion HoursEntry) := HoursTable.usual ++
      [⟨.nymex, some "cl", .future, stamped .utc⟩, ⟨.nymex, some "", .future, stamped .london⟩,
        ⟨.nymex, none, .future, stamped .berlin⟩]
    let row : PropertyEntry := ⟨"", none, .one, .one, .one, none⟩
    let propertyHistory : List (MetadataInsertion PropertyEntry) :=
      hoursHistory.map fun i => ⟨i.market, i.root, i.kind, row⟩
    let hours : HoursTable := ((HoursTable.ofExchanges.insert .nymex (some "cl") .future
      (stamped .utc)).insert .nymex (some "") .future (stamped .london)).insert .nymex none .future
        (stamped .berlin)
    let properties : PropertyTable := .ofInsertions propertyHistory
    let oil : Symbol := .future "Cl" .cme default
    let unnamed : Symbol := .undated "" .future .nymex
    let gas : Symbol := .undated "NG" .future .nymex
    hoursHistory.map (·.key) = propertyHistory.map (·.key) ∧ hours.size = 12 ∧
      HoursTable.hours hours .nymex oil .future = .ok (stamped .utc) ∧
      HoursTable.hours hours .nymex unnamed .future = .ok (stamped .london) ∧
      HoursTable.hours hours .nymex gas .future = .ok (stamped .berlin) ∧
      HoursTable.hours hours .nymex gas .equity = .error (.unknownHours .nymex gas .equity) ∧
      PropertyTable.properties properties .nymex gas .equity .usd =
        .ok (.error (.unknownProperties .nymex gas .equity)) := by
  intro stamped hoursHistory row propertyHistory hours properties oil unnamed gas
  have hmade : MetadataTable.ofInsertions hoursHistory = hours :=
    HoursTable.ofInsertions_usual_append _
  obtain ⟨hfollows, -, hstanding, -, hagree⟩ :=
    metadata_follows_insertions hoursHistory propertyHistory
  rw [hmade] at hfollows hstanding hagree
  have hkeys : hoursHistory.map (·.key) = propertyHistory.map (·.key) := by
    rw [List.map_map]
    rfl
  have hoil : MetadataInsertion.standing? .nymex oil.id .future hoursHistory =
      some (stamped .utc) := by cbv
  have hunnamed : MetadataInsertion.standing? .nymex unnamed.id .future hoursHistory =
      some (stamped .london) := by cbv
  have hgas : MetadataInsertion.standing? .nymex gas.id .future hoursHistory =
      some (stamped .berlin) := by cbv
  have hstock : MetadataInsertion.standing? .nymex gas.id .equity hoursHistory = none := by
    decide +kernel
  have hmissing : HoursTable.hours hours .nymex gas .equity =
      .error (.unknownHours .nymex gas .equity) := by
    rw [hstanding, hstock]
  refine ⟨hkeys, ?_, ?_, ?_, ?_, hmissing, (hagree hkeys .nymex gas .equity .usd).2.1 hmissing⟩
  · rw [hfollows.size_eq]
    decide +kernel
  · rw [hstanding, hoil]
  · rw [hstanding, hunnamed]
  · rw [hstanding, hgas]

end FuturesChains
