import Mathlib.Data.List.TakeWhile
import FuturesChains.Text.Blank
import FuturesChains.Text.Split

/-!
# The parts of a text

What white space around a text changes, and what cutting a text at a separator gives. `trimmed_pad`
says that white space at the ends is lost in trimming and nothing else is (`exists_pad`), and
`cutAtFirst_pad` that a cut at a separator which is no white space is the same in the trimmed text
and in the whole one, up to white space at the ends.
-/

namespace FuturesChains.Text

/-- There is nothing but white space. -/
def Blank (cs : List Char) : Prop := ∀ c ∈ cs, isBlank c = true

/-- A look at each character decides it. -/
instance (cs : List Char) : Decidable (Blank cs) := List.decidableBAll (isBlank · = true) cs

variable {before after cs left right : List Char} {separator : Char}

@[simp]
theorem blank_append_iff : Blank (left ++ right) ↔ Blank left ∧ Blank right :=
  List.forall_mem_append

@[simp]
theorem blank_cons_iff {c : Char} : Blank (c :: cs) ↔ isBlank c = true ∧ Blank cs :=
  List.forall_mem_cons

theorem Blank.not_mem (h : Blank cs) (c : Char) (hc : isBlank c = false) : c ∉ cs := by
  intro hmem
  rw [h c hmem] at hc
  cases hc

theorem trimmed_append_left (h : Blank before) : trimmed (before ++ cs) = trimmed cs := by
  unfold trimmed dropBlanks
  rw [List.dropWhile_append_of_pos h]

theorem trimmed_append_right (h : Blank after) : trimmed (cs ++ after) = trimmed cs := by
  unfold trimmed dropBlanks
  rw [List.dropWhile_append]
  split
  · rename_i hnil
    rw [List.dropWhile_eq_nil_iff.2 h, List.isEmpty_iff.1 hnil]
  · rw [List.reverse_append, List.dropWhile_append_of_pos (by simpa [Blank] using h)]

/-- White space at the ends is lost in trimming. -/
theorem trimmed_pad (hbefore : Blank before) (hafter : Blank after) :
    trimmed (before ++ cs ++ after) = trimmed cs := by
  rw [trimmed_append_right hafter, trimmed_append_left hbefore]

theorem exists_dropBlanks (cs : List Char) :
    ∃ before, Blank before ∧ cs = before ++ dropBlanks cs :=
  ⟨cs.takeWhile isBlank, fun _ hc => List.mem_takeWhile_imp hc,
    List.takeWhile_append_dropWhile.symm⟩

/-- Trimming takes nothing but white space from the ends. -/
theorem exists_pad (cs : List Char) :
    ∃ before after, Blank before ∧ Blank after ∧ cs = before ++ trimmed cs ++ after := by
  obtain ⟨before, hbefore, hcs⟩ := exists_dropBlanks cs
  obtain ⟨after, hafter, hreverse⟩ := exists_dropBlanks (dropBlanks cs).reverse
  have hdrop : dropBlanks cs = trimmed cs ++ after.reverse := by
    rw [trimmed, ← List.reverse_append, ← hreverse, List.reverse_reverse]
  refine ⟨before, after.reverse, hbefore, by simpa [Blank] using hafter, ?_⟩
  rw [List.append_assoc, ← hdrop]
  exact hcs

@[simp]
theorem trimmed_trimmed (cs : List Char) : trimmed (trimmed cs) = trimmed cs := by
  obtain ⟨before, after, hbefore, hafter, hcs⟩ := exists_pad cs
  have hpad : trimmed (before ++ trimmed cs ++ after) = trimmed (trimmed cs) :=
    trimmed_pad hbefore hafter
  rw [← hpad, ← hcs]

theorem trimmed_eq_nil_iff : trimmed cs = [] ↔ Blank cs := by
  constructor
  · intro h
    obtain ⟨before, after, hbefore, hafter, hcs⟩ := exists_pad cs
    rw [h] at hcs
    rw [hcs]
    simp [hbefore, hafter]
  · intro h
    have hpad : trimmed (cs ++ []) = trimmed [] := trimmed_append_left h
    rwa [List.append_nil] at hpad

theorem cutAtFirst_eq_none_iff : cutAtFirst separator cs = none ↔ separator ∉ cs := by
  induction cs with
  | nil => simp [cutAtFirst]
  | cons c rest ih =>
      unfold cutAtFirst
      split
      · simp_all
      · rename_i hne
        simp [ih, Ne.symm hne]

theorem cutAtFirst_eq_some_iff : cutAtFirst separator cs = some (left, right) ↔
    cs = left ++ separator :: right ∧ separator ∉ left := by
  refine ⟨cutAtFirst_some, ?_⟩
  rintro ⟨rfl, hleft⟩
  induction left with
  | nil => simp [cutAtFirst]
  | cons c left ih =>
      obtain ⟨hne, hrest⟩ : separator ≠ c ∧ separator ∉ left := by simpa using hleft
      rw [List.cons_append, cutAtFirst, if_neg (Ne.symm hne), ih hrest]
      rfl

/-- White space at the ends stays at the outer ends of the two sides of a cut. -/
theorem cutAtFirst_pad (hbefore : Blank before) (hafter : Blank after)
    (hsep : isBlank separator = false) :
    (cutAtFirst separator (before ++ cs ++ after)).map (Prod.map trimmed trimmed) =
      (cutAtFirst separator cs).map (Prod.map trimmed trimmed) := by
  cases hcut : cutAtFirst separator cs with
  | none =>
      have hnone : cutAtFirst separator (before ++ cs ++ after) = none := by
        rw [cutAtFirst_eq_none_iff] at *
        simp [hcut, hbefore.not_mem separator hsep, hafter.not_mem separator hsep]
      rw [hnone]
  | some sides =>
      obtain ⟨left, right⟩ := sides
      obtain ⟨rfl, hleft⟩ := cutAtFirst_some hcut
      have hsome : cutAtFirst separator (before ++ (left ++ separator :: right) ++ after) =
          some (before ++ left, right ++ after) := by
        rw [cutAtFirst_eq_some_iff]
        simp [hleft, hbefore.not_mem separator hsep]
      rw [hsome]
      simp [trimmed_append_left hbefore, trimmed_append_right hafter]

/-- The parts are those of the library. -/
theorem splitOn_eq (separator : Char) (cs : List Char) :
    splitOn separator cs = cs.splitOn separator := by
  induction cs with
  | nil => rfl
  | cons c rest ih =>
      rw [splitOn, List.splitOn, List.splitOnP_cons_eq_if_modifyHead, ih, List.splitOn]
      by_cases hc : c = separator
      · simp [hc]
      · simp only [hc, if_false, beq_iff_eq]
        cases hparts : rest.splitOnP (· == separator) with
        | nil => exact absurd (ih.trans hparts) (splitOn_ne_nil separator rest)
        | cons part parts => rfl

/-- No separator is left in the parts. -/
theorem not_mem_of_mem_splitOn {part : List Char} (h : part ∈ splitOn separator cs) :
    separator ∉ part := by
  induction cs generalizing part with
  | nil =>
      obtain rfl : part = [] := by simpa [splitOn] using h
      simp
  | cons c rest ih =>
      unfold splitOn at h
      split at h
      · obtain rfl | hpart := List.mem_cons.1 h
        · simp
        · exact ih hpart
      · rename_i hne
        split at h
        · obtain rfl : part = [c] := by simpa using h
          simp [Ne.symm hne]
        · rename_i head tail hrest
          obtain rfl | hpart := List.mem_cons.1 h
          · have hhead := ih (hrest ▸ List.mem_cons_self)
            simp [Ne.symm hne, hhead]
          · exact ih (hrest ▸ List.mem_cons_of_mem _ hpart)

end FuturesChains.Text
