import Mathlib.Data.List.Forall2
import FuturesChains.Config
import FuturesChains.Proofs.Text.Parts

/-!
# The grammar of a chain list

A chain list is read by its grammar: `NamesChain` says which chain an item names, and a list is read
exactly if it has an item that is not blank and each such item names a chain, in their order
(`readChains_eq_ok_iff`). White space is of no account wherever the grammar allows it
(`forall₂_namesChain_addsBlank`). What the grammar does not ask for is a root: nothing but white
space before an at sign is a root without letters, and `chain_list_grammar` says that there are no
other chains of this kind.
-/

namespace FuturesChains

open Text

/-- A member of a set of codes is read from its name, up to white space at the ends and the case of
letters, where the names are distinct and in capital letters. -/
theorem readCode_eq_ok_iff {α : Type} {members : List α} {name : α → String} {set text : String}
    (hall : ∀ member, member ∈ members) (hupper : ∀ member, upper (name member) = name member)
    (hinj : ∀ {a b}, name a = name b ↔ a = b) {member : α} :
    readCode members name set text = .ok member ↔ upper (trim text) = name member := by
  simp only [readCode, sameLetters, hupper]
  cases hfind : members.find? fun member => name member == upper (trim text) with
  | some found =>
      have hname : name found = upper (trim text) := by simpa using List.find?_some hfind
      rw [← hname, hinj, Except.ok.injEq]
  | none =>
      have hnone := List.find?_eq_none.1 hfind member (hall member)
      exact iff_of_false (by simp) fun hname => hnone (beq_iff_eq.2 hname.symm)

/-- An exchange is read from its name, up to white space at the ends and the case of letters. -/
theorem Exchange.read_eq_ok_iff {text : String} {venue : Exchange} :
    Exchange.read text = .ok venue ↔ upper (trim text) = venue.name := by
  refine readCode_eq_ok_iff Exchange.mem_all (fun venue => ?_) (fun {a b} => ?_)
  · cases venue <;> decide
  · cases a <;> cases b <;> decide

theorem Text.upper_ofList_eq_empty_iff {cs : List Char} :
    upper (String.ofList cs) = "" ↔ cs = [] := by
  simp [upper]

namespace Config

/-- What an item of a chain list names: a root is a chain of the given market, and a root with a
market behind the first at sign is one of that market. -/
inductive NamesChain (market : Exchange) : List Char → Symbol → Prop
  | root {item : List Char} (hroot : '@' ∉ item) :
      NamesChain market item (.undated (upper (String.ofList (trimmed item))) .future market)
  | marked {root code : List Char} {venue : Exchange} (hroot : '@' ∉ root)
      (hvenue : upper (String.ofList (trimmed code)) = venue.name) :
      NamesChain market (root ++ '@' :: code)
        (.undated (upper (String.ofList (trimmed root))) .future venue)

/-- White space is added to an item, around it or around its first at sign. -/
inductive PadsItem : List Char → List Char → Prop
  | around {before item after : List Char} (hbefore : Blank before) (hafter : Blank after) :
      PadsItem item (before ++ item ++ after)
  | atSign {root code before after : List Char} (hroot : '@' ∉ root) (hbefore : Blank before)
      (hafter : Blank after) :
      PadsItem (root ++ '@' :: code) (root ++ before ++ '@' :: (after ++ code))

/-- A blank item is added to the items of a chain list, or white space to some of them. -/
inductive AddsBlank : List (List Char) → List (List Char) → Prop
  | item {left right : List (List Char)} {item : List Char} (hitem : Blank item) :
      AddsBlank (left ++ right) (left ++ item :: right)
  | pad {items padded : List (List Char)} (hpad : List.Forall₂ PadsItem items padded) :
      AddsBlank items padded

/-- The items that are not blank. -/
def worded (items : List (List Char)) : List (List Char) := items.filter (¬ Blank ·)

theorem worded_append (left right : List (List Char)) :
    worded (left ++ right) = worded left ++ worded right :=
  List.filter_append left right

theorem worded_cons_of_blank {item : List Char} {rest : List (List Char)} (h : Blank item) :
    worded (item :: rest) = worded rest :=
  List.filter_cons_of_neg (by simpa using h)

theorem worded_cons_of_not_blank {item : List Char} {rest : List (List Char)} (h : ¬ Blank item) :
    worded (item :: rest) = item :: worded rest :=
  List.filter_cons_of_pos (by simpa using h)

variable {market : Exchange} {item padded before after : List Char} {s : Symbol}

/-- An item names a chain by what is on the two sides of its first at sign, up to white space at
the ends. -/
theorem namesChain_iff : NamesChain market item s ↔
    match (cutAtFirst '@' item).map (Prod.map trimmed trimmed) with
    | none => s = .undated (upper (String.ofList (trimmed item))) .future market
    | some (root, code) => ∃ venue : Exchange, upper (String.ofList code) = venue.name ∧
        s = .undated (upper (String.ofList root)) .future venue := by
  constructor
  · rintro (hroot | ⟨hroot, hvenue⟩)
    · rw [cutAtFirst_eq_none_iff.2 hroot]
      rfl
    · rw [cutAtFirst_eq_some_iff.2 ⟨rfl, hroot⟩]
      exact ⟨_, hvenue, rfl⟩
  · intro h
    cases hcut : cutAtFirst '@' item with
    | none =>
        rw [hcut] at h
        obtain rfl := h
        exact .root (cutAtFirst_eq_none_iff.1 hcut)
    | some sides =>
        rw [hcut] at h
        obtain ⟨rfl, hroot⟩ := cutAtFirst_some hcut
        obtain ⟨venue, hvenue, rfl⟩ := h
        exact .marked hroot hvenue

theorem namesChain_pad (hbefore : Blank before) (hafter : Blank after) :
    NamesChain market (before ++ item ++ after) s ↔ NamesChain market item s := by
  rw [namesChain_iff, namesChain_iff, cutAtFirst_pad hbefore hafter (by decide),
    trimmed_pad hbefore hafter]

theorem PadsItem.namesChain_iff (h : PadsItem item padded) :
    NamesChain market padded s ↔ NamesChain market item s := by
  cases h with
  | around hbefore hafter => exact namesChain_pad hbefore hafter
  | atSign hroot hbefore hafter =>
      rw [Config.namesChain_iff, Config.namesChain_iff,
        cutAtFirst_eq_some_iff.2 ⟨rfl, hroot⟩, cutAtFirst_eq_some_iff.2 ⟨rfl, ?_⟩]
      · simp [trimmed_append_left hafter, trimmed_append_right hbefore]
      · simp [hroot, hbefore.not_mem '@' (by decide)]

theorem PadsItem.blank_iff (h : PadsItem item padded) : Blank padded ↔ Blank item := by
  cases h with
  | around hbefore hafter => simp [hbefore, hafter]
  | atSign =>
      have hsign : ¬ isBlank '@' = true := by decide
      simp [hsign]

theorem PadsItem.not_comma (h : PadsItem item padded) (hitem : ',' ∉ item) : ',' ∉ padded := by
  cases h with
  | around hbefore hafter =>
      simp [hitem, hbefore.not_mem ',' (by decide),
        hafter.not_mem ',' (by decide)]
  | atSign hroot hbefore hafter =>
      simp_all [hbefore.not_mem ',' (by decide),
        hafter.not_mem ',' (by decide)]

/-- An item is read, when it is trimmed, if it names a chain. -/
theorem readChain_trimmed_eq_ok_iff :
    readChain market (trimmed item) = .ok s ↔ NamesChain market item s := by
  obtain ⟨before, after, hbefore, hafter, hitem⟩ := exists_pad item
  rw [hitem, namesChain_pad hbefore hafter, ← hitem, namesChain_iff]
  unfold readChain
  cases cutAtFirst '@' (trimmed item) with
  | none => simp [eq_comm]
  | some sides =>
      obtain ⟨root, code⟩ := sides
      have hvenue : ∀ venue : Exchange, upper (String.ofList (trimmed code)) = venue.name ↔
          Exchange.read (String.ofList code) = .ok venue := fun venue => by
        rw [Exchange.read_eq_ok_iff, trim, String.toList_ofList]
      simp only [Option.map_some, Prod.map_apply, hvenue]
      cases Exchange.read (String.ofList code) with
      | error error => simp
      | ok venue => simp [eq_comm]

/-- Some items are read if each of them is. -/
theorem mapM_readChain_eq_ok_iff {items : List (List Char)} {chains : List Symbol} :
    items.mapM (readChain market) = .ok chains ↔
      List.Forall₂ (fun item s => readChain market item = .ok s) items chains := by
  induction items generalizing chains with
  | nil => simp [pure, Except.pure, eq_comm]
  | cons item rest ih =>
      simp only [List.mapM_cons, List.forall₂_cons_left_iff, ← ih]
      cases readChain market item with
      | error cause => simp [bind, Except.bind]
      | ok s =>
          cases rest.mapM (readChain market) with
          | error cause => simp [bind, Except.bind]
          | ok found => simp [bind, Except.bind, pure, Except.pure, eq_comm]

/-- The items that are read are those that are not blank, trimmed. -/
theorem chainItems_eq (text : String) :
    chainItems text = (worded (text.toList.splitOn ',')).map trimmed := by
  unfold chainItems worded
  rw [splitOn_eq, List.filter_map]
  refine congrArg (List.map trimmed) (List.filter_congr fun item _ => ?_)
  rw [Function.comp_apply, Bool.eq_iff_iff]
  simp [trimmed_eq_nil_iff]

/-- A chain list is read if it has an item that is not blank and each such item names a chain. -/
theorem readChains_eq_ok_iff {text : String} {chains : List Symbol} :
    readChains market text = .ok chains ↔ chains ≠ [] ∧
      List.Forall₂ (NamesChain market) (worded (text.toList.splitOn ',')) chains := by
  have hitems : ∀ chains, (chainItems text).mapM (readChain market) = .ok chains ↔
      List.Forall₂ (NamesChain market) (worded (text.toList.splitOn ',')) chains := fun chains => by
    simp only [mapM_readChain_eq_ok_iff, chainItems_eq, List.forall₂_map_left_iff,
      readChain_trimmed_eq_ok_iff]
  rw [← hitems]
  unfold readChains
  cases (chainItems text).mapM (readChain market) with
  | error cause => simp [bind, Except.bind]
  | ok found =>
      cases found with
      | nil => simp [bind, Except.bind, eq_comm]
      | cons s rest =>
          simp only [bind, Except.bind, List.isEmpty_cons, Bool.false_eq_true, if_false,
            Except.ok.injEq]
          constructor
          · rintro rfl
            exact ⟨List.cons_ne_nil s rest, rfl⟩
          · exact fun h => h.2

/-- White space that is added to items changes nothing in the chains that they name. -/
theorem forall₂_namesChain_pad {items padded : List (List Char)} {chains : List Symbol}
    (h : List.Forall₂ PadsItem items padded) :
    List.Forall₂ (NamesChain market) (worded padded) chains ↔
      List.Forall₂ (NamesChain market) (worded items) chains := by
  induction h generalizing chains with
  | nil => rfl
  | @cons item padded items rest hpad hrest ih =>
      by_cases hblank : Blank item
      · rw [worded_cons_of_blank hblank, worded_cons_of_blank (hpad.blank_iff.2 hblank), ih]
      · rw [worded_cons_of_not_blank hblank,
          worded_cons_of_not_blank (mt hpad.blank_iff.1 hblank)]
        simp only [List.forall₂_cons_left_iff, hpad.namesChain_iff, ih]

theorem AddsBlank.forall₂_namesChain_iff {items padded : List (List Char)} {chains : List Symbol}
    (h : AddsBlank items padded) :
    List.Forall₂ (NamesChain market) (worded padded) chains ↔
      List.Forall₂ (NamesChain market) (worded items) chains := by
  cases h with
  | item hitem => rw [worded_append, worded_cons_of_blank hitem, ← worded_append]
  | pad hpad => exact forall₂_namesChain_pad hpad

theorem AddsBlank.not_comma {items padded : List (List Char)} (h : AddsBlank items padded)
    (hitems : ∀ item ∈ items, ',' ∉ item) : ∀ item ∈ padded, ',' ∉ item := by
  cases h with
  | item hblank =>
      have hcomma := hblank.not_mem ',' (by decide)
      simp_all [or_imp, forall_and]
  | pad hpad =>
      induction hpad with
      | nil => exact hitems
      | cons hpad _ ih =>
          obtain ⟨hitem, hrest⟩ := List.forall_mem_cons.1 hitems
          exact List.forall_mem_cons.2 ⟨hpad.not_comma hitem, ih hrest⟩

theorem AddsBlank.ne_nil {items padded : List (List Char)} (h : AddsBlank items padded)
    (hitems : items ≠ []) : padded ≠ [] := by
  cases h with
  | item => simp
  | pad hpad =>
      rintro rfl
      exact hitems (List.forall₂_nil_right_iff.1 hpad)

/-- What is added to the items of a text does not make other items of them. -/
theorem AddsBlank.splitOn_intercalate {text : List Char} {padded : List (List Char)}
    (h : AddsBlank (text.splitOn ',') padded) :
    ([','].intercalate padded).splitOn ',' = padded := by
  rw [← splitOn_eq] at h
  exact List.splitOn_intercalate ',' (h.not_comma fun _ => not_mem_of_mem_splitOn)
    (h.ne_nil (splitOn_ne_nil ',' text))

/-- White space that is added to a chain list changes neither whether it is read nor its chains. -/
theorem readChains_addsBlank {text : String} {padded : List (List Char)}
    (h : AddsBlank (text.toList.splitOn ',') padded) :
    (readChains market (String.ofList ([','].intercalate padded))).toOption =
      (readChains market text).toOption := by
  have hread : ∀ chains, readChains market (String.ofList ([','].intercalate padded)) = .ok chains ↔
      readChains market text = .ok chains := fun chains => by
    rw [readChains_eq_ok_iff, readChains_eq_ok_iff, String.toList_ofList, h.splitOn_intercalate,
      h.forall₂_namesChain_iff]
  cases hpadded : readChains market (String.ofList ([','].intercalate padded)) with
  | ok chains => rw [(hread chains).1 hpadded]
  | error cause =>
      cases htext : readChains market text with
      | ok chains =>
          rw [(hread chains).2 htext] at hpadded
          cases hpadded
      | error cause => rfl

/-- A chain has an empty root if there is nothing but white space before its at sign. -/
theorem NamesChain.id_eq_empty_iff (h : NamesChain market item s) (hitem : ¬ Blank item) :
    s.id = "" ↔ ∃ root code, item = root ++ '@' :: code ∧ Blank root := by
  cases h with
  | root hroot =>
      refine iff_of_false ?_ ?_
      · simpa [Symbol.undated, upper_ofList_eq_empty_iff, trimmed_eq_nil_iff] using hitem
      · rintro ⟨root, code, rfl, -⟩
        simp at hroot
  | @marked root code venue hroot =>
      simp only [Symbol.undated, upper_ofList_eq_empty_iff, trimmed_eq_nil_iff]
      constructor
      · exact fun hblank => ⟨root, code, rfl, hblank⟩
      · rintro ⟨root', code', heq, hblank⟩
        have hcut := cutAtFirst_eq_some_iff.2 ⟨heq, hblank.not_mem '@' (by decide)⟩
        rw [cutAtFirst_eq_some_iff.2 ⟨rfl, hroot⟩] at hcut
        cases hcut
        exact hblank

/-- Chains have roots if the items that name them have something before their at signs. -/
theorem forall_id_ne_empty_iff {items : List (List Char)} {chains : List Symbol}
    (h : List.Forall₂ (NamesChain market) items chains) (hitems : ∀ item ∈ items, ¬ Blank item) :
    (∀ s ∈ chains, s.id ≠ "") ↔
      ∀ item ∈ items, ¬ ∃ root code, item = root ++ '@' :: code ∧ Blank root := by
  induction h with
  | nil => simp
  | cons hchain _ ih =>
      obtain ⟨hitem, hrest⟩ := List.forall_mem_cons.1 hitems
      simp only [List.forall_mem_cons, ih hrest, Ne, hchain.id_eq_empty_iff hitem]

/-- An item names a chain unless there is an at sign in it without the name of a market behind. -/
theorem exists_namesChain_iff : (∃ s, NamesChain market item s) ↔
    ('@' ∈ item → ∃ root code, ∃ venue : Exchange, item = root ++ '@' :: code ∧ '@' ∉ root ∧
      upper (String.ofList (trimmed code)) = venue.name) := by
  constructor
  · rintro ⟨s, hroot | ⟨hroot, hvenue⟩⟩ hsign
    · exact absurd hsign hroot
    · exact ⟨_, _, _, rfl, hroot, hvenue⟩
  · intro h
    by_cases hsign : '@' ∈ item
    · obtain ⟨root, code, venue, rfl, hroot, hvenue⟩ := h hsign
      exact ⟨_, .marked hroot hvenue⟩
    · exact ⟨_, .root hsign⟩

theorem exists_forall₂_namesChain_iff {items : List (List Char)} :
    (∃ chains, List.Forall₂ (NamesChain market) items chains) ↔
      ∀ item ∈ items, '@' ∈ item → ∃ root code, ∃ venue : Exchange,
        item = root ++ '@' :: code ∧ '@' ∉ root ∧
          upper (String.ofList (trimmed code)) = venue.name := by
  induction items with
  | nil => simp
  | cons item rest ih =>
      rw [List.forall_mem_cons, ← ih, ← exists_namesChain_iff]
      simp only [List.forall₂_cons_left_iff]
      constructor
      · rintro ⟨_, s, chains, hitem, hrest, rfl⟩
        exact ⟨⟨s, hitem⟩, chains, hrest⟩
      · rintro ⟨⟨s, hitem⟩, chains, hrest⟩
        exact ⟨_, s, chains, hitem, hrest, rfl⟩

/-- A chain list is read, whatever the market of its roots, if it has an item that is not blank and
no such item has an at sign without the name of a market behind the first one. -/
theorem exists_readChains_iff {text : String} : (∃ chains, readChains market text = .ok chains) ↔
    worded (text.toList.splitOn ',') ≠ [] ∧
      ∀ item ∈ worded (text.toList.splitOn ','), '@' ∈ item →
        ∃ root code, ∃ venue : Exchange, item = root ++ '@' :: code ∧ '@' ∉ root ∧
          upper (String.ofList (trimmed code)) = venue.name := by
  rw [← exists_forall₂_namesChain_iff]
  simp only [readChains_eq_ok_iff]
  constructor
  · rintro ⟨chains, hne, hchains⟩
    refine ⟨?_, chains, hchains⟩
    rintro hnil
    rw [hnil, List.forall₂_nil_left_iff] at hchains
    exact hne hchains
  · rintro ⟨hne, chains, hchains⟩
    refine ⟨chains, ?_, hchains⟩
    rintro rfl
    exact hne (List.forall₂_nil_right_iff.1 hchains)

/-- The items of a chain list that are not blank are each a root, or a root with the name of a
market behind the first at sign; a chain list is read if there are such items and all of them are
of this form, and gives their chains in order. White space around items, roots and markets and blank
items are of no account. The grammar does not ask for a root before an at sign: the chains have
roots, all of them, exactly if each item has something before its at sign that is not white space.
-/
theorem chain_list_grammar (market : Exchange) (text : String) :
    (∀ chains, readChains market text = .ok chains ↔ chains ≠ [] ∧
      List.Forall₂ (NamesChain market) (worded (text.toList.splitOn ',')) chains) ∧
    ((∃ chains, readChains market text = .ok chains) ↔
      worded (text.toList.splitOn ',') ≠ [] ∧
        ∀ item ∈ worded (text.toList.splitOn ','), '@' ∈ item →
          ∃ root code, ∃ venue : Exchange, item = root ++ '@' :: code ∧ '@' ∉ root ∧
            upper (String.ofList (trimmed code)) = venue.name) ∧
    (∀ padded, AddsBlank (text.toList.splitOn ',') padded →
      (readChains market (String.ofList ([','].intercalate padded))).toOption =
        (readChains market text).toOption) ∧
    ∀ chains, readChains market text = .ok chains →
      ((∀ s ∈ chains, s.id ≠ "") ↔
        ∀ root code, root ++ '@' :: code ∈ text.toList.splitOn ',' → ¬ Blank root) := by
  refine ⟨fun chains => readChains_eq_ok_iff, exists_readChains_iff,
    fun padded => readChains_addsBlank, fun chains hread => ?_⟩
  have hsign : isBlank '@' = false := by decide
  rw [forall_id_ne_empty_iff (readChains_eq_ok_iff.1 hread).2
    (fun item hitem => by simpa using (List.mem_filter.1 hitem).2)]
  constructor
  · intro h root code hitem hblank
    exact h _ (List.mem_filter.2 ⟨hitem, by simp [hsign]⟩) ⟨root, code, rfl, hblank⟩
  · rintro h item hitem ⟨root, code, rfl, hblank⟩
    exact h root code (List.mem_filter.1 hitem).1 hblank

/-- Two chains with roots, also with blanks around a root and an at sign. -/
theorem chain_list_grammar_two_chains :
    readChains .nymex "cl,ES@cme" = .ok [.undated "CL" .future .nymex, .undated "ES" .future .cme] ∧
      (readChains .nymex " cl,ES @ cme").toOption =
        some [.undated "CL" .future .nymex, .undated "ES" .future .cme] ∧
      ∀ root code, root ++ '@' :: code ∈ "cl,ES@cme".toList.splitOn ',' → ¬ Blank root := by
  have hread : readChains .nymex "cl,ES@cme" =
      .ok [.undated "CL" .future .nymex, .undated "ES" .future .cme] := rfl
  have haround : PadsItem ['c', 'l'] ([' '] ++ ['c', 'l'] ++ []) :=
    .around (by decide) (by decide)
  have hatSign : PadsItem (['E', 'S'] ++ '@' :: ['c', 'm', 'e'])
      (['E', 'S'] ++ [' '] ++ '@' :: ([' '] ++ ['c', 'm', 'e'])) :=
    .atSign (by decide) (by decide) (by decide)
  obtain ⟨-, -, hpadded, hroots⟩ := chain_list_grammar .nymex "cl,ES@cme"
  refine ⟨hread, ?_, (hroots _ hread).1 (by decide)⟩
  have hsame := hpadded _ (.pad (.cons haround (.cons hatSign .nil)))
  rw [hread] at hsame
  exact hsame

/-- An item with nothing before its at sign is read, and names a chain with an empty root. -/
theorem chain_list_empty_root :
    readChains .nymex "@CME" = .ok [.undated "" .future .cme] ∧
      ¬ ∀ (market : Exchange) (text : String) (chains : List Symbol),
        readChains market text = .ok chains → ∀ s ∈ chains, s.id ≠ "" := by
  have hread : readChains .nymex "@CME" = .ok [.undated "" .future .cme] := rfl
  exact ⟨hread, fun h => h _ _ _ hread _ List.mem_cons_self rfl⟩

end Config

end FuturesChains
