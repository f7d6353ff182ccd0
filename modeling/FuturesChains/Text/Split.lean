/-!
# Splitting a text

`splitOn` cuts at every occurrence of a separator and `cutAtFirst` at the first one only.
`splitOn_ne_nil` says that there is always a part, and `cutAtFirst_some` that the cut loses nothing
but the separator.
-/

namespace FuturesChains.Text

/-- The parts of a text between the occurrences of a separator; `n` occurrences give `n + 1`
parts, which may be empty. -/
def splitOn (separator : Char) : List Char → List (List Char)
  | [] => [[]]
  | c :: rest =>
    if c = separator then [] :: splitOn separator rest
    else match splitOn separator rest with
      | [] => [[c]]
      | part :: parts => (c :: part) :: parts

/-- The text before and the text after the first occurrence of a separator. -/
def cutAtFirst (separator : Char) : List Char → Option (List Char × List Char)
  | [] => none
  | c :: rest =>
    if c = separator then some ([], rest)
    else (cutAtFirst separator rest).map fun (left, right) => (c :: left, right)

/-- A text has at least one part. -/
theorem splitOn_ne_nil (separator : Char) (cs : List Char) : splitOn separator cs ≠ [] := by
  cases cs with
  | nil => simp [splitOn]
  | cons c rest =>
    unfold splitOn
    split
    · simp
    · split <;> simp

/-- A cut puts the whole text on its two sides, with the separator between them. -/
theorem cutAtFirst_some {separator : Char} {cs left right : List Char}
    (h : cutAtFirst separator cs = some (left, right)) :
    cs = left ++ separator :: right ∧ separator ∉ left := by
  induction cs generalizing left with
  | nil => simp [cutAtFirst] at h
  | cons c rest ih =>
    unfold cutAtFirst at h
    split at h
    · obtain ⟨rfl, rfl⟩ := by simpa using h
      simp_all
    · rename_i hc
      obtain ⟨⟨l, r⟩, hcut, heq⟩ := Option.map_eq_some_iff.1 h
      obtain ⟨rfl, rfl⟩ := by simpa using heq
      obtain ⟨hrest, hnot⟩ := ih hcut
      refine ⟨by rw [hrest, List.cons_append], ?_⟩
      simp only [List.mem_cons, not_or]
      exact ⟨fun h => hc h.symm, hnot⟩

end FuturesChains.Text
