import FuturesChains.Text.Blank

/-!
# Modes of a pattern

Flags in a pattern change how the parts behind them are read, up to the end of the group that they
stand in. `apply_nil` says that no flags change nothing.
-/

namespace FuturesChains.ValuePattern

/-- How the next part of a pattern is read: whether the case of its letters counts, whether it
stands for characters or for single bytes, and whether white space and comments are passed over. -/
structure Mode where
  ignoresCase : Bool
  wholeCharacters : Bool
  ignoresBlanks : Bool
  deriving DecidableEq

namespace Mode

/-- The mode in which every pattern begins. -/
def standard : Mode := ⟨false, true, false⟩

/-- The text behind white space and comments. A comment runs from a number sign to the end of the
line; `inComment` says that the text begins inside one. -/
def afterComments : Bool → List Char → List Char
  | _, [] => []
  | true, c :: rest => afterComments (c != '\n') rest
  | false, c :: rest =>
    if Text.isBlank c then afterComments false rest
    else if c = '#' then afterComments true rest
    else c :: rest

/-- The text from the next character that counts. -/
def skip (m : Mode) (text : List Char) : List Char :=
  if m.ignoresBlanks then afterComments false text else text

/-- The next character that counts, as far as it decides whether a range goes on. Of a comment only
the sign is passed over, and a text of nothing else shows its first character. -/
def peek (m : Mode) (text : List Char) : Option Char :=
  if m.ignoresBlanks then
    let ahead := match Text.dropBlanks text with
      | '#' :: comment => Text.dropBlanks comment
      | other => other
    ahead.head?.or text.head?
  else text.head?

end Mode

/-- Flags as they are written: letters, and a minus sign before those that are switched off. -/
abbrev Flags := List Char

namespace Flags

/-- The letters: the case of letters, the start and end of lines, the point, greed, whole
characters, the ends of lines, white space. -/
def letters : List Char := ['i', 'm', 's', 'U', 'u', 'R', 'x']

/-- Every letter is known, nothing is written twice, and a minus sign has letters behind it. -/
def isValid (flags : Flags) : Bool :=
  flags.all (fun c => c = '-' || letters.contains c) && decide flags.Nodup
    && flags.getLast? != some '-'

/-- What the flags make of a setting. -/
def setting (flags : Flags) (letter : Char) (old : Bool) : Bool :=
  if flags.contains letter then !(flags.takeWhile (· != letter)).contains '-' else old

/-- The mode behind the flags. -/
def apply (flags : Flags) (m : Mode) : Mode :=
  ⟨flags.setting 'i' m.ignoresCase, flags.setting 'u' m.wholeCharacters,
    flags.setting 'x' m.ignoresBlanks⟩

/-- No flags change nothing. -/
theorem apply_nil (m : Mode) : apply [] m = m := by simp [apply, setting]

end Flags

end FuturesChains.ValuePattern
