import FuturesChains.Text.GraphemeExtend
import FuturesChains.Text.Unprintable

/-!
# Quoted text

A text in double quotes, as error messages and log fields show it. The quote and the backslash are
marked with a backslash, four control characters have a letter of their own, and a character that
cannot be seen alone is written by its number. `quoteChar_of_plain` says that every other character
stands for itself.
-/

namespace FuturesChains.Text

/-- A character by its number: lower-case hexadecimal digits in braces. -/
def numbered (c : Char) : List Char :=
  ['\\', 'u', '\x7b'] ++ Nat.toDigits 16 c.toNat ++ ['\x7d']

/-- The two sound marks that fill a halfwidth cell of their own. -/
def isSoundMark (c : Char) : Bool := ['\uff9e', '\uff9f'].contains c

/-- The fillers of the Hangul script, which are letters without a form. -/
def isFiller (c : Char) : Bool := ['\u115f', '\u1160', '\u3164', '\uffa0'].contains c

/-- A character cannot be shown alone. -/
def isHidden (c : Char) : Bool :=
  isGraphemeExtend c && !isSoundMark c || isUnprintable c || isFiller c

/-- How one character stands in a quoted text. -/
def quoteChar (c : Char) : List Char :=
  if c = '\x00' then ['\\', '0']
  else if c = '\t' then ['\\', 't']
  else if c = '\r' then ['\\', 'r']
  else if c = '\n' then ['\\', 'n']
  else if c = '"' || c = '\\' then ['\\', c]
  else if isHidden c then numbered c
  else [c]

/-- A text in double quotes. -/
def quote (text : String) : String :=
  String.ofList ('"' :: text.toList.flatMap quoteChar ++ ['"'])

/-- The marks that a quoted text never shows bare. -/
def isMarked (c : Char) : Bool :=
  ['\x00', '\t', '\r', '\n', '"', '\\'].contains c || isHidden c

/-- A character that is not marked stands for itself. -/
theorem quoteChar_of_plain {c : Char} (h : isMarked c = false) : quoteChar c = [c] := by
  simp only [isMarked, List.contains_eq_mem, List.mem_cons, List.not_mem_nil, or_false,
    Bool.or_eq_false_iff, decide_eq_false_iff_not, not_or] at h
  obtain ⟨⟨h0, ht, hr, hn, hq, hb⟩, hh⟩ := h
  simp [quoteChar, h0, ht, hr, hn, hq, hb, hh]

end FuturesChains.Text
