/-!
# ASCII letters

Case mapping and comparison that touch only the ASCII letters, and the filter that keeps only
ASCII letters and digits. Every other character stays as it is.
-/

namespace FuturesChains.Text

/-- A text with its ASCII letters in upper case. -/
def upper (text : String) : String :=
  String.ofList (text.toList.map Char.toUpper)

/-- A text with its ASCII letters in lower case. -/
def lower (text : String) : String :=
  String.ofList (text.toList.map Char.toLower)

/-- Two texts agree up to the case of ASCII letters. -/
def sameLetters (left right : String) : Bool :=
  upper left == upper right

/-- The ASCII letters and digits of a text, in order and in upper case. -/
def alphanumerics (text : String) : List Char :=
  (text.toList.filter Char.isAlphanum).map Char.toUpper

end FuturesChains.Text
