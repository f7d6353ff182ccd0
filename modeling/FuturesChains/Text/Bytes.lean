/-!
# Counting in bytes

Positions in a text, counted in the bytes of its UTF-8 form. A position inside a character is no
place to cut at. `afterBytes?_append` and `firstBytes?_append` say that a text cut at the end of one
of its parts falls into that part and the rest.
-/

namespace FuturesChains.Text

/-- How many bytes a text has. -/
def byteCount : List Char → Nat
  | [] => 0
  | c :: rest => c.utf8Size + byteCount rest

/-- The text behind its first bytes. -/
def afterBytes? : Nat → List Char → Option (List Char)
  | 0, text => some text
  | _ + 1, [] => none
  | n + 1, c :: rest =>
    if c.utf8Size ≤ n + 1 then afterBytes? (n + 1 - c.utf8Size) rest else none

/-- The first bytes of a text. -/
def firstBytes? : Nat → List Char → Option (List Char)
  | 0, _ => some []
  | _ + 1, [] => none
  | n + 1, c :: rest =>
    if c.utf8Size ≤ n + 1 then (firstBytes? (n + 1 - c.utf8Size) rest).map (c :: ·) else none

/-- A character adds its own bytes. -/
theorem byteCount_cons (c : Char) (rest : List Char) :
    byteCount (c :: rest) = c.utf8Size + byteCount rest := rfl

/-- Behind the bytes of a part stands the rest. -/
theorem afterBytes?_append (left right : List Char) :
    afterBytes? (byteCount left) (left ++ right) = some right := by
  induction left with
  | nil => simp [byteCount, afterBytes?]
  | cons c left ih =>
    obtain ⟨n, hn⟩ := Nat.exists_eq_add_of_lt c.utf8Size_pos
    rw [byteCount_cons, List.cons_append, show c.utf8Size + byteCount left
      = n + byteCount left + 1 by omega, afterBytes?, if_pos (by omega),
      show n + byteCount left + 1 - c.utf8Size = byteCount left by omega, ih]

/-- The bytes of a part are that part. -/
theorem firstBytes?_append (left right : List Char) :
    firstBytes? (byteCount left) (left ++ right) = some left := by
  induction left with
  | nil => simp [byteCount, firstBytes?]
  | cons c left ih =>
    obtain ⟨n, hn⟩ := Nat.exists_eq_add_of_lt c.utf8Size_pos
    rw [byteCount_cons, List.cons_append, show c.utf8Size + byteCount left
      = n + byteCount left + 1 by omega, firstBytes?, if_pos (by omega),
      show n + byteCount left + 1 - c.utf8Size = byteCount left by omega, ih, Option.map_some]

end FuturesChains.Text
