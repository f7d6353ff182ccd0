import Mathlib.Data.List.Induction
import Mathlib.Data.List.Nodup
import FuturesChains.Proofs.Engine.ExchangeBuckets
import FuturesChains.Proofs.Selection.ChainIdentity

/-!
# The registry's journal

A registry is used by insertions and removals, in any order. `RegistryOperation.registered?_apply`
says what one of them does to every symbol: a removal clears its symbol, an insertion fills one that
is clear, and nothing else changes. `journal_faithful` follows the operations from the empty
registry on: the journal's events of a symbol are additions and removals in turn, the last of them
tells whether the symbol is registered, and what a symbol leads to is the first security that was
inserted for it since its last removal. All of this is seen as well of a registry that keeps its
symbols by exchange (`ExchangeBuckets.afterAll_byExchange`).
-/

namespace FuturesChains

namespace RegistryEvent

/-- The symbol that an event is about. -/
def symbol : RegistryEvent → Symbol
  | .added symbol => symbol
  | .removed symbol => symbol

/-- The event is a removal. -/
def isRemoval : RegistryEvent → Bool
  | .added _ => false
  | .removed _ => true

/-- The first so many events of a symbol when additions and removals come in turn. -/
def inTurn (symbol : Symbol) (count : Nat) : List RegistryEvent :=
  (List.range count).map fun i => if i % 2 = 0 then .added symbol else .removed symbol

theorem inTurn_succ (symbol : Symbol) (count : Nat) :
    inTurn symbol (count + 1) =
      inTurn symbol count ++ [if count % 2 = 0 then .added symbol else .removed symbol] := by
  simp [inTurn, List.range_succ]

theorem length_inTurn (symbol : Symbol) (count : Nat) : (inTurn symbol count).length = count := by
  simp [inTurn]

/-- The last of an odd number of events in turn is an addition, that of an even number is not. -/
theorem getLast?_inTurn_eq_added_iff (symbol : Symbol) (count : Nat) :
    (inTurn symbol count).getLast? = some (.added symbol) ↔ count % 2 = 1 := by
  cases count with
  | zero => simp [inTurn]
  | succ count =>
      rw [inTurn_succ, List.getLast?_concat]
      by_cases heven : count % 2 = 0
      · simp only [heven, if_true, true_iff]
        omega
      · simp only [heven, if_false, Option.some.injEq, reduceCtorEq, false_iff]
        omega

end RegistryEvent

/-- What is done to a registry. -/
inductive RegistryOperation where
  | insert (security : Security)
  | remove (symbol : Symbol)

namespace RegistryOperation

/-- The symbol that an operation is about. -/
def symbol : RegistryOperation → Symbol
  | .insert security => security.symbol
  | .remove symbol => symbol

/-- The operation takes a symbol off. -/
def removes (symbol : Symbol) : RegistryOperation → Bool
  | .insert _ => false
  | .remove other => other = symbol

/-- The security that an operation offers for a symbol. -/
def offer? (symbol : Symbol) : RegistryOperation → Option Security
  | .insert security => if security.symbol = symbol then some security else none
  | .remove _ => none

/-- The registry after an operation. -/
def apply (r : Registry) : RegistryOperation → Registry
  | .insert security => (r.insert security).2
  | .remove symbol => (r.remove symbol).2

/-- The first security that some operations insert for a symbol after they last removed it. -/
def firstSinceRemoval (symbol : Symbol) (operations : List RegistryOperation) : Option Security :=
  (operations.reverse.takeWhile (!·.removes symbol)).reverse.findSome? (·.offer? symbol)

/-- One more operation: a removal begins anew, and an offer counts if there is none so far. -/
theorem firstSinceRemoval_concat (symbol : Symbol) (operations : List RegistryOperation)
    (op : RegistryOperation) :
    firstSinceRemoval symbol (operations ++ [op]) =
      if op.removes symbol then none
      else (firstSinceRemoval symbol operations).or (op.offer? symbol) := by
  rw [firstSinceRemoval, List.reverse_append, List.reverse_singleton, List.singleton_append,
    List.takeWhile_cons]
  cases hremoves : op.removes symbol with
  | true => rfl
  | false =>
      simp only [Bool.not_false, if_true, List.reverse_cons, List.findSome?_append]
      rw [List.findSome?_singleton]
      rfl

end RegistryOperation

namespace Registry

/-- The registry after some operations. -/
def afterAll (r : Registry) (operations : List RegistryOperation) : Registry :=
  operations.foldl RegistryOperation.apply r

/-- The security that is registered for a symbol. -/
def registered? (r : Registry) (symbol : Symbol) : Option Security :=
  (r.find? symbol).bind r.security?

/-- The events of a symbol in the journal. -/
def eventsOf (r : Registry) (symbol : Symbol) : List RegistryEvent :=
  r.journal.filter (·.symbol = symbol)

theorem afterAll_concat (r : Registry) (operations : List RegistryOperation)
    (op : RegistryOperation) :
    r.afterAll (operations ++ [op]) = op.apply (r.afterAll operations) := by
  simp [afterAll, List.foldl_append]

theorem afterAll_append (r : Registry) (operations later : List RegistryOperation) :
    r.afterAll (operations ++ later) = (r.afterAll operations).afterAll later := by
  simp [afterAll, List.foldl_append]

/-- Every symbol is registered once and leads to a cell. -/
structure Indexed (r : Registry) : Prop where
  nodup : (r.index.map (·.1)).Nodup
  held : ∀ entry ∈ r.index, (r.security? entry.2).isSome = true

/-- The journal's events of a symbol come in turn, and there are as many additions as removals
unless the symbol is registered. The registered symbols are counted by the journal. -/
structure Journaled (r : Registry) : Prop extends r.Indexed where
  turns : ∀ symbol, ∃ rounds,
    r.eventsOf symbol = RegistryEvent.inTurn symbol
      (2 * rounds + if (r.find? symbol).isSome then 1 else 0)
  counted : r.size + r.journal.countP (·.isRemoval) = r.journal.countP (·.isAddition)

theorem Indexed.isSome_security? {r : Registry} (h : r.Indexed) {symbol : Symbol}
    {id : SecurityId} (hfind : r.find? symbol = some id) : (r.security? id).isSome = true :=
  h.held _ (mem_of_find? hfind)

/-- A symbol leads to a security if it is registered. -/
theorem Indexed.isSome_registered? {r : Registry} (h : r.Indexed) (symbol : Symbol) :
    (r.registered? symbol).isSome = (r.find? symbol).isSome := by
  unfold registered?
  cases hfind : r.find? symbol with
  | none => rfl
  | some id => exact h.isSome_security? hfind

/-- A new security is registered for its symbol, and the other symbols keep theirs. -/
theorem Indexed.registered?_extend {r : Registry} (h : r.Indexed) {security : Security}
    (hfind : r.find? security.symbol = none) (symbol : Symbol) :
    (r.extend security).registered? symbol =
      if security.symbol = symbol then some security else r.registered? symbol := by
  simp only [registered?, find?_extend]
  by_cases hsymbol : security.symbol = symbol
  · rw [← hsymbol, hfind]
    simp
  · cases hother : r.find? symbol with
    | none => simp [hsymbol]
    | some id => simp [hsymbol, security?_extend_of_isSome (h.isSome_security? hother)]

/-- The registry without a symbol that it had. -/
def erase (r : Registry) (symbol : Symbol) : Registry :=
  { r with
    index := r.index.filter (·.1 ≠ symbol)
    journal := r.journal ++ [.removed symbol] }

theorem journal_extend (r : Registry) (security : Security) :
    (r.extend security).journal = r.journal ++ [.added security.symbol] := rfl

theorem journal_erase (r : Registry) (symbol : Symbol) :
    (r.erase symbol).journal = r.journal ++ [.removed symbol] := rfl

theorem remove_of_find? {r : Registry} {symbol : Symbol} {id : SecurityId}
    (h : r.find? symbol = some id) : r.remove symbol = (some id, r.erase symbol) := by
  simp [remove, h, erase]

theorem remove_of_find?_eq_none {r : Registry} {symbol : Symbol} (h : r.find? symbol = none) :
    r.remove symbol = (none, r) := by
  simp [remove, h]

/-- The symbol that is taken off leads nowhere, the others where they led. -/
theorem find?_erase (r : Registry) (symbol other : Symbol) :
    (r.erase symbol).find? other = if symbol = other then none else r.find? other := by
  simp only [find?, erase, List.find?_filter]
  by_cases h : symbol = other
  · subst h
    simp
  · rw [if_neg h]
    congr 2
    funext entry
    by_cases hentry : entry.1 = other
    · simp [hentry, Ne.symm h]
    · simp [hentry]

theorem eventsOf_extend (r : Registry) (security : Security) (symbol : Symbol) :
    (r.extend security).eventsOf symbol =
      r.eventsOf symbol ++ if security.symbol = symbol then [.added symbol] else [] := by
  by_cases h : security.symbol = symbol <;>
    simp [eventsOf, journal_extend, List.filter_append, RegistryEvent.symbol, h]

theorem eventsOf_erase (r : Registry) (other symbol : Symbol) :
    (r.erase other).eventsOf symbol =
      r.eventsOf symbol ++ if other = symbol then [.removed symbol] else [] := by
  by_cases h : other = symbol <;>
    simp [eventsOf, journal_erase, List.filter_append, RegistryEvent.symbol, h]

/-- The removal of a registered symbol leaves one symbol less. -/
theorem Indexed.size_erase {r : Registry} (h : r.Indexed) {symbol : Symbol} {id : SecurityId}
    (hfind : r.find? symbol = some id) : (r.erase symbol).size + 1 = r.size := by
  have hone : r.index.countP (·.1 = symbol) = 1 := by
    have hcount := List.count_eq_one_of_mem h.nodup (List.mem_map_of_mem (mem_of_find? hfind))
    rw [List.count_eq_countP, List.countP_map] at hcount
    exact (List.countP_congr fun entry _ => by simp).trans hcount
  have hsplit := List.length_eq_countP_add_countP (fun entry => decide (entry.1 = symbol))
    (l := r.index)
  simp only [size, erase, ← List.countP_eq_length_filter]
  simp only [hone, decide_eq_true_eq] at hsplit
  simpa [Nat.add_comm] using hsplit.symm

end Registry

namespace RegistryOperation

variable {r : Registry}

/-- An operation leaves where every other symbol leads. -/
theorem find?_apply_of_ne {op : RegistryOperation} {symbol : Symbol} (h : op.symbol ≠ symbol) :
    (op.apply r).find? symbol = r.find? symbol := by
  cases op with
  | insert security => exact Registry.find?_insert_of_ne (Ne.symm h)
  | remove other =>
      cases hfind : r.find? other with
      | none => rw [apply, Registry.remove_of_find?_eq_none hfind]
      | some id =>
          rw [apply, Registry.remove_of_find? hfind, Registry.find?_erase]
          exact if_neg h

/-- What an operation does to every symbol. -/
theorem registered?_apply (h : r.Indexed) (op : RegistryOperation) (symbol : Symbol) :
    (op.apply r).registered? symbol =
      if op.removes symbol then none else (r.registered? symbol).or (op.offer? symbol) := by
  cases op with
  | insert security =>
      simp only [apply, removes, offer?, Bool.false_eq_true, if_false]
      cases hfind : r.find? security.symbol with
      | some id =>
          rw [Registry.insert_of_find? hfind]
          by_cases hsymbol : security.symbol = symbol
          · -- the security that is registered takes precedence over the offer
            have hsome := h.isSome_registered? symbol
            rw [← hsymbol, hfind] at hsome
            obtain ⟨old, hold⟩ := Option.isSome_iff_exists.1 hsome
            rw [← hsymbol, hold]
            rfl
          · simp [hsymbol]
      | none =>
          rw [Registry.insert_of_find?_eq_none hfind, h.registered?_extend hfind]
          by_cases hsymbol : security.symbol = symbol
          · rw [hsymbol] at hfind
            simp [hsymbol, Registry.registered?, hfind]
          · simp [hsymbol]
  | remove other =>
      simp only [apply, removes, offer?, decide_eq_true_eq, Option.or_none]
      cases hfind : r.find? other with
      | none =>
          rw [Registry.remove_of_find?_eq_none hfind]
          split
          · rename_i hsymbol
            rw [← hsymbol, Registry.registered?, hfind]
            rfl
          · rfl
      | some id =>
          rw [Registry.remove_of_find? hfind, Registry.registered?, Registry.find?_erase]
          split
          · rfl
          · rfl

/-- A registered symbol leads to its cell unless the operation removes it. -/
theorem find?_apply_of_find? {op : RegistryOperation} {symbol : Symbol} {id : SecurityId}
    (hfind : r.find? symbol = some id) (hop : op.removes symbol = false) :
    (op.apply r).find? symbol = some id := by
  by_cases h : op.symbol = symbol
  · cases op with
    | insert security =>
        obtain rfl : security.symbol = symbol := h
        rwa [apply, Registry.insert_of_find? hfind]
    | remove other =>
        have hne : other ≠ symbol := by simpa [removes] using hop
        exact absurd h hne
  · rwa [find?_apply_of_ne h]

/-- An operation leaves the securities in their cells, also that of a removed symbol. -/
theorem security?_apply {id : SecurityId} {security : Security}
    (h : r.security? id = some security) (op : RegistryOperation) :
    (op.apply r).security? id = some security := by
  cases op with
  | insert other =>
      cases hfind : r.find? other.symbol with
      | some found => rwa [apply, Registry.insert_of_find? hfind]
      | none =>
          rw [apply, Registry.insert_of_find?_eq_none hfind,
            Registry.security?_extend_of_isSome (by rw [h]; rfl), h]
  | remove symbol =>
      cases hfind : r.find? symbol with
      | none => rwa [apply, Registry.remove_of_find?_eq_none hfind]
      | some found => rwa [apply, Registry.remove_of_find? hfind]

end RegistryOperation

namespace Registry

theorem Journaled.empty : Registry.empty.Journaled where
  nodup := List.nodup_nil
  held := by simp [Registry.empty]
  turns := fun _ => ⟨0, rfl⟩
  counted := rfl

/-- The registration of a symbol goes on with the journal. -/
theorem Journaled.extend {r : Registry} (h : r.Journaled) {security : Security}
    (hfind : r.find? security.symbol = none) : (r.extend security).Journaled where
  nodup := by
    rw [index_extend, List.map_append, List.map_singleton]
    exact List.nodup_append.2 ⟨h.nodup, List.nodup_singleton _, fun a ha b hb heq =>
      find?_eq_none_iff.1 hfind (by rwa [heq, List.mem_singleton.1 hb] at ha)⟩
  held := by
    intro entry hentry
    rw [index_extend] at hentry
    rcases List.mem_append.1 hentry with hold | hnew
    · rw [security?_extend_of_isSome (h.held entry hold)]
      exact h.held entry hold
    · rw [List.mem_singleton.1 hnew, security?_extend_length]
      rfl
  turns := by
    intro symbol
    obtain ⟨rounds, hevents⟩ := h.turns symbol
    refine ⟨rounds, ?_⟩
    rw [eventsOf_extend, find?_extend]
    by_cases hsymbol : security.symbol = symbol
    · subst hsymbol
      rw [hevents, hfind]
      simp [RegistryEvent.inTurn_succ]
    · simp [hsymbol, hevents]
  counted := by
    have hcounted := h.counted
    have hsize : (r.extend security).size = r.size + 1 := by simp [size]
    have hadded : [RegistryEvent.added security.symbol].countP (·.isAddition) = 1 := rfl
    have hremoved : [RegistryEvent.added security.symbol].countP (·.isRemoval) = 0 := rfl
    rw [hsize, journal_extend, List.countP_append, List.countP_append, hadded, hremoved]
    omega

/-- The removal of a registered symbol goes on with the journal. -/
theorem Journaled.erase {r : Registry} (h : r.Journaled) {symbol : Symbol} {id : SecurityId}
    (hfind : r.find? symbol = some id) : (r.erase symbol).Journaled where
  nodup := h.nodup.sublist (List.filter_sublist.map _)
  held := fun entry hentry => h.held entry (List.mem_of_mem_filter hentry)
  turns := by
    intro other
    obtain ⟨rounds, hevents⟩ := h.turns other
    by_cases hsymbol : symbol = other
    · subst hsymbol
      refine ⟨rounds + 1, ?_⟩
      rw [eventsOf_erase, find?_erase, hevents, hfind]
      simp [Nat.mul_add, RegistryEvent.inTurn_succ]
    · refine ⟨rounds, ?_⟩
      rw [eventsOf_erase, find?_erase]
      simp [hsymbol, hevents]
  counted := by
    have hcounted := h.counted
    have hsize := h.size_erase hfind
    have hadded : [RegistryEvent.removed symbol].countP (·.isAddition) = 0 := rfl
    have hremoved : [RegistryEvent.removed symbol].countP (·.isRemoval) = 1 := rfl
    rw [journal_erase, List.countP_append, List.countP_append, hadded, hremoved]
    omega

theorem Journaled.apply {r : Registry} (h : r.Journaled) (op : RegistryOperation) :
    (op.apply r).Journaled := by
  cases op with
  | insert security =>
      cases hfind : r.find? security.symbol with
      | some id => rwa [RegistryOperation.apply, insert_of_find? hfind]
      | none =>
          rw [RegistryOperation.apply, insert_of_find?_eq_none hfind]
          exact h.extend hfind
  | remove symbol =>
      cases hfind : r.find? symbol with
      | none => rwa [RegistryOperation.apply, remove_of_find?_eq_none hfind]
      | some id =>
          rw [RegistryOperation.apply, remove_of_find? hfind]
          exact h.erase hfind

/-- Operations keep what holds of the empty registry, by induction from the last one back. -/
theorem journaled_afterAll (operations : List RegistryOperation) :
    (empty.afterAll operations).Journaled := by
  induction operations using List.reverseRecOn with
  | nil => exact .empty
  | append_singleton operations op ih =>
      rw [afterAll_concat]
      exact ih.apply op

/-- A symbol leads to its cell, and the cell holds its security, until the symbol is removed. -/
theorem afterAll_of_find? {r : Registry} {symbol : Symbol} {id : SecurityId} {security : Security}
    {later : List RegistryOperation} (hfind : r.find? symbol = some id)
    (hsecurity : r.security? id = some security)
    (hlater : ∀ op ∈ later, op.removes symbol = false) :
    (r.afterAll later).find? symbol = some id ∧
      (r.afterAll later).security? id = some security := by
  induction later generalizing r with
  | nil => exact ⟨hfind, hsecurity⟩
  | cons op rest ih =>
      obtain ⟨hop, hrest⟩ := List.forall_mem_cons.1 hlater
      exact ih (RegistryOperation.find?_apply_of_find? hfind hop)
        (RegistryOperation.security?_apply hsecurity op) hrest

/-- The insertion of a symbol that is not registered makes a new cell, and the symbol leads there
until it is removed. -/
theorem afterAll_insert {r : Registry} {security : Security} {later : List RegistryOperation}
    (hnew : r.find? security.symbol = none)
    (hlater : ∀ op ∈ later, op.removes security.symbol = false) :
    ∃ id, (r.insert security).1 = id ∧ r.security? id = none ∧
      (r.afterAll (.insert security :: later)).find? security.symbol = some id ∧
      (r.afterAll (.insert security :: later)).security? id = some security := by
  have hinsert := insert_of_find?_eq_none hnew
  have hfind := find?_insert r security
  have hsecurity := security?_extend_length r security
  rw [hinsert] at hfind
  refine ⟨⟨r.cells.length⟩, by rw [hinsert], by simp [security?], ?_⟩
  have hafter : r.afterAll (.insert security :: later) = (r.extend security).afterAll later := by
    simp only [afterAll, List.foldl_cons, RegistryOperation.apply, hinsert]
  rw [hafter]
  exact afterAll_of_find? hfind hsecurity hlater

/-- A symbol leads to the first security that was inserted for it since its last removal. -/
theorem registered?_afterAll (operations : List RegistryOperation) (symbol : Symbol) :
    (empty.afterAll operations).registered? symbol =
      RegistryOperation.firstSinceRemoval symbol operations := by
  induction operations using List.reverseRecOn with
  | nil => rfl
  | append_singleton operations op ih =>
      rw [afterAll_concat, RegistryOperation.registered?_apply (journaled_afterAll _).toIndexed,
        RegistryOperation.firstSinceRemoval_concat, ih]

end Registry

namespace ExchangeBuckets

/-- The store after an operation. -/
def apply (b : ExchangeBuckets) : RegistryOperation → ExchangeBuckets
  | .insert security => (b.insert security).2
  | .remove symbol => (b.remove symbol).2

/-- The store after some operations. -/
def afterAll (b : ExchangeBuckets) (operations : List RegistryOperation) : ExchangeBuckets :=
  operations.foldl apply b

/-- Operations on the buckets of a registry lead to the buckets of the registry after them. -/
theorem afterAll_byExchange (r : Registry) (operations : List RegistryOperation) :
    r.byExchange.afterAll operations = (r.afterAll operations).byExchange := by
  induction operations generalizing r with
  | nil => rfl
  | cons op rest ih =>
      have happly : r.byExchange.apply op = (op.apply r).byExchange := by
        cases op with
        | insert security => rw [apply, Registry.insert_byExchange, RegistryOperation.apply]
        | remove symbol => rw [apply, Registry.remove_byExchange, RegistryOperation.apply]
      simp only [afterAll, Registry.afterAll, List.foldl_cons] at ih ⊢
      rw [happly, ih]

end ExchangeBuckets

/-- After any insertions and removals, the journal's events of every symbol are additions and
removals in turn, an addition first; a symbol is registered if the last of its events is an
addition, and as many symbols are as there are additions over the removals. A symbol leads to the
first security that was inserted for it since its last removal: an insertion of a symbol that is not
registered makes a new cell, and the symbol leads to that cell, whatever is inserted for it, until
it is removed. Operations on other symbols leave it alone. The insertion of a registered symbol and
the removal of one that is not registered do nothing. A registry that keeps its symbols by exchange,
each found through its market, gives the same answers, has the same journal and counts as many. -/
theorem journal_faithful (operations : List RegistryOperation) :
    let r := Registry.empty.afterAll operations
    (∀ symbol, r.eventsOf symbol = RegistryEvent.inTurn symbol (r.eventsOf symbol).length) ∧
      (∀ symbol, (r.find? symbol).isSome = true ↔
        (r.eventsOf symbol).getLast? = some (.added symbol)) ∧
      ((r.size : Int) = r.journal.countP (·.isAddition) - r.journal.countP (·.isRemoval)) ∧
      (∀ symbol, r.registered? symbol =
        RegistryOperation.firstSinceRemoval symbol operations) ∧
      (∀ before security later, operations = before ++ .insert security :: later →
        (Registry.empty.afterAll before).find? security.symbol = none →
        (∀ op ∈ later, op.removes security.symbol = false) →
          ∃ id, ((Registry.empty.afterAll before).insert security).1 = id ∧
            (Registry.empty.afterAll before).security? id = none ∧
            r.find? security.symbol = some id ∧ r.security? id = some security) ∧
      (∀ (op : RegistryOperation) symbol, op.symbol ≠ symbol →
        (op.apply r).find? symbol = r.find? symbol ∧
          (op.apply r).registered? symbol = r.registered? symbol) ∧
      (∀ security id, r.find? security.symbol = some id → r.insert security = (id, r)) ∧
      (∀ symbol, r.find? symbol = none → r.remove symbol = (none, r)) ∧
      let b := ExchangeBuckets.empty.afterAll operations
      b.cells = r.cells ∧ b.journal = r.journal ∧ b.size = r.size ∧
        (∀ symbol, b.find? symbol = r.find? symbol) ∧
        (∀ security, (b.insert security).1 = (r.insert security).1) ∧
        ∀ symbol, (b.remove symbol).1 = (r.remove symbol).1 := by
  intro r
  have hjournaled : r.Journaled := Registry.journaled_afterAll operations
  have hturns : ∀ symbol, r.eventsOf symbol =
      RegistryEvent.inTurn symbol (r.eventsOf symbol).length := by
    intro symbol
    obtain ⟨rounds, hevents⟩ := hjournaled.turns symbol
    rw [hevents, RegistryEvent.length_inTurn]
  refine ⟨hturns, ?_, ?_, Registry.registered?_afterAll operations, ?_, ?_,
    fun security id => Registry.insert_of_find?, fun symbol => Registry.remove_of_find?_eq_none, ?_⟩
  · intro symbol
    obtain ⟨rounds, hevents⟩ := hjournaled.turns symbol
    rw [hevents, RegistryEvent.getLast?_inTurn_eq_added_iff]
    cases (r.find? symbol).isSome <;> simp
  · have hcounted := hjournaled.counted
    omega
  · rintro before security later rfl hnew hlater
    simp only [r, Registry.afterAll_append]
    exact Registry.afterAll_insert hnew hlater
  · intro op symbol hne
    have hfind := RegistryOperation.find?_apply_of_ne (r := r) hne
    refine ⟨hfind, ?_⟩
    cases hid : r.find? symbol with
    | none => simp [Registry.registered?, hfind, hid]
    | some id =>
        obtain ⟨security, hsecurity⟩ :=
          Option.isSome_iff_exists.1 (hjournaled.isSome_security? hid)
        simp only [Registry.registered?, hfind, hid, Option.bind_some, hsecurity]
        exact RegistryOperation.security?_apply hsecurity op
  · have hbuckets : ExchangeBuckets.empty.afterAll operations = r.byExchange :=
      ExchangeBuckets.afterAll_byExchange Registry.empty operations
    rw [hbuckets]
    exact ⟨rfl, rfl, r.size_byExchange, r.find?_byExchange,
      fun security => by rw [r.insert_byExchange], fun symbol => by rw [r.remove_byExchange]⟩

/-- Crude oil is inserted at leverage two and again at leverage three, removed and inserted at
leverage three, and gold once. Two are registered, crude oil in its second cell, also where each has
a bucket of its exchange. -/
theorem journal_faithful_oil_and_gold :
    let security (root : String) (market : Exchange) (leverage : Decimal) : Security :=
      let symbol : Symbol := .undated root .future market
      let hours := MarketHours.ofExchange market
      { Security.assembled symbol ⟨root, .usd, .one, .one, .one, .one, none⟩ hours hours.zone
          ⟨symbol, .daily, some ⟨86400⟩, hours.zone, hours.zone, true, false, false, false, false⟩ with
        leverage }
    let oil := security "CL" .nymex
    let gold := security "GC" .comex .one
    let oilSymbol : Symbol := .undated "CL" .future .nymex
    let r := Registry.empty.afterAll [.insert (oil (.ofUnits 2 0)), .insert (oil (.ofUnits 3 0)),
      .insert gold, .remove oilSymbol, .insert (oil (.ofUnits 3 0)), .insert (oil (.ofUnits 2 0))]
    r.eventsOf oilSymbol = [.added oilSymbol, .removed oilSymbol, .added oilSymbol] ∧
      (r.size : Int) = 2 ∧
      (r.registered? oilSymbol).map (·.leverage) = some (.ofUnits 3 0) ∧
      r.find? oilSymbol = some ⟨2⟩ ∧
      ((RegistryOperation.remove oilSymbol).apply r).find? (.undated "GC" .future .comex) =
        r.find? (.undated "GC" .future .comex) ∧
      r.insert (oil (.ofUnits 2 0)) = (⟨2⟩, r) ∧
      r.remove (.undated "CL" .future .comex) = (none, r) ∧
      (ExchangeBuckets.empty.afterAll [.insert (oil (.ofUnits 2 0)), .insert (oil (.ofUnits 3 0)),
        .insert gold, .remove oilSymbol, .insert (oil (.ofUnits 3 0)),
        .insert (oil (.ofUnits 2 0))]).find? oilSymbol = some ⟨2⟩ := by
  intro security oil gold oilSymbol r
  obtain ⟨hturns, -, hsize, hfirst, hcell, hother, hinsert, hremove,
    -, -, -, hbuckets, -⟩ :=
    journal_faithful [.insert (oil (.ofUnits 2 0)), .insert (oil (.ofUnits 3 0)), .insert gold,
      .remove oilSymbol, .insert (oil (.ofUnits 3 0)), .insert (oil (.ofUnits 2 0))]
  obtain ⟨id, hid, -, hfind, -⟩ := hcell [.insert (oil (.ofUnits 2 0)),
    .insert (oil (.ofUnits 3 0)), .insert gold, .remove oilSymbol] (oil (.ofUnits 3 0))
    [.insert (oil (.ofUnits 2 0))] rfl (by decide +kernel) (by decide +kernel)
  obtain rfl : id = ⟨2⟩ := hid.symm.trans (by decide +kernel)
  refine ⟨(hturns oilSymbol).trans ?_, hsize.trans ?_, ?_, hfind,
    (hother (.remove oilSymbol) _ (by decide +kernel)).1, hinsert _ _ hfind,
    hremove _ (by decide +kernel), (hbuckets oilSymbol).trans hfind⟩
  · decide +kernel
  · decide +kernel
  · rw [hfirst oilSymbol]
    decide +kernel

end FuturesChains
