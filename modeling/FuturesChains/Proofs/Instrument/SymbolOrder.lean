import FuturesChains.Instrument.Symbol

/-!
# The order of symbols

`Symbol.compare` is a total order that tells all symbols apart: it is the lexicographic order by
root, kind, market and expiry, and two symbols that agree in all four are one. Hence `ascending`
puts the symbols of a list into strictly ascending order (`isAscending_ascending`) and neither gains
nor loses any (`mem_ascending`).
-/

namespace FuturesChains

/-- No two kinds have one place in the order. -/
theorem Kind.eq_of_rank_eq {a b : Kind} (h : a.rank = b.rank) : a = b := by
  cases a <;> cases b <;> first | rfl | cases h

/-- No two exchanges have one place in the order. -/
theorem Exchange.eq_of_rank_eq {a b : Exchange} (h : a.rank = b.rank) : a = b := by
  cases a <;> cases b <;> first | rfl | cases h

namespace Symbol

/-- The comparison of symbols by one part after the other. -/
theorem compare_eq_compareLex : Symbol.compare =
    compareLex (compareOn (·.id)) (compareLex (compareOn (·.kind.rank))
      (compareLex (compareOn (·.market.rank)) (compareOn (·.expiry.map (·.day))))) := by
  funext a b
  obtain ⟨_, _, _, expiry⟩ := a
  obtain ⟨_, _, _, expiry'⟩ := b
  cases expiry <;> cases expiry' <;> rfl

instance : Std.TransCmp Symbol.compare := by
  rw [compare_eq_compareLex]
  infer_instance

instance : Std.LawfulEqCmp Symbol.compare where
  eq_of_compare {a b} h := by
    obtain ⟨id, kind, market, expiry⟩ := a
    obtain ⟨id', kind', market', expiry'⟩ := b
    simp only [compare_eq_compareLex, compareLex_eq_eq, compareOn,
      Std.LawfulEqCmp.compare_eq_iff_eq] at h
    obtain ⟨hid, hkind, hmarket, hexpiry⟩ := h
    obtain rfl := Kind.eq_of_rank_eq hkind
    obtain rfl := Exchange.eq_of_rank_eq hmarket
    have hday : Function.Injective Date.day := fun _ _ => Date.eq_of_day_eq
    rw [hid, Option.map_injective hday hexpiry]

/-- The symbols stand in strictly ascending order. -/
def IsAscending (symbols : List Symbol) : Prop :=
  symbols.Pairwise fun a b => a.compare b = .lt

/-- A test keeps the order. -/
theorem IsAscending.filter {symbols : List Symbol} (h : IsAscending symbols)
    (test : Symbol → Bool) : IsAscending (symbols.filter test) :=
  List.Pairwise.filter test h

theorem atMost_iff (a b : Symbol) : a.atMost b = true ↔ (a.compare b).isLE = true := by
  unfold atMost
  cases a.compare b <;> simp

theorem mem_dropRepeats {s : Symbol} {symbols : List Symbol} :
    s ∈ dropRepeats symbols ↔ s ∈ symbols := by
  fun_induction dropRepeats symbols with
  | case1 => rfl
  | case2 => rfl
  | case3 t rest ih => simp [ih]
  | case4 t u rest hne ih => simp [ih]

/-- Without repeats a list in order is strictly ascending. -/
theorem pairwise_dropRepeats {symbols : List Symbol}
    (hsorted : symbols.Pairwise fun a b => a.atMost b = true) :
    IsAscending (dropRepeats symbols) := by
  fun_induction dropRepeats symbols with
  | case1 => exact List.Pairwise.nil
  | case2 => exact List.pairwise_singleton ..
  | case3 t rest ih => exact ih (List.pairwise_cons.1 hsorted).2
  | case4 t u rest hne ih =>
      obtain ⟨hfirst, hrest⟩ := List.pairwise_cons.1 hsorted
      refine List.pairwise_cons.2 ⟨fun s hs => ?_, ih hrest⟩
      have hlt : t.compare u = .lt := by
        rcases Ordering.isLE_iff_eq_lt_or_eq_eq.1 ((atMost_iff t u).1 (hfirst u (by simp))) with
          hlt | heq
        · exact hlt
        · exact absurd (Std.LawfulEqCmp.eq_of_compare heq) hne
      rcases List.mem_cons.1 (mem_dropRepeats.1 hs) with rfl | hs
      · exact hlt
      · exact Std.TransCmp.lt_of_lt_of_isLE hlt
          ((atMost_iff u s).1 ((List.pairwise_cons.1 hrest).1 s hs))

/-- The symbols of a list in their order are the symbols of the list. -/
theorem mem_ascending {s : Symbol} {symbols : List Symbol} :
    s ∈ ascending symbols ↔ s ∈ symbols := by
  rw [ascending, mem_dropRepeats, (List.mergeSort_perm symbols atMost).mem_iff]

/-- The symbols of a list in their order are strictly ascending. -/
theorem isAscending_ascending (symbols : List Symbol) : IsAscending (ascending symbols) := by
  have hsorted : (symbols.mergeSort atMost).Pairwise fun a b => a.atMost b = true := by
    apply List.pairwise_mergeSort
    · intro a b c hab hbc
      rw [atMost_iff] at hab hbc ⊢
      exact Std.TransCmp.isLE_trans hab hbc
    · intro a b
      have hswap : b.compare a = (a.compare b).swap := Std.OrientedCmp.eq_swap
      rw [Bool.or_eq_true, atMost_iff, atMost_iff, hswap]
      cases a.compare b <;> simp
  exact pairwise_dropRepeats hsorted

end Symbol

end FuturesChains
