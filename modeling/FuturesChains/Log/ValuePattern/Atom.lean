import FuturesChains.Log.ValuePattern.Mode
import FuturesChains.Number.Integer

/-!
# Atoms of a pattern

An atom is a part of a pattern that holds no other: a character, a shorthand for a set of
characters, or a place. Patterns know no properties of characters beyond ASCII, so what asks for one
cannot be matched: a shorthand, the edge of a word, or a character in its other case.
`isSupported_standard` says what is left in the mode in which every pattern begins.
-/

namespace FuturesChains.ValuePattern

/-- An atom. A character that is written with two hexadecimal digits is a `byte`; a `shorthand`
names digits, blanks or the characters of words, or with an upper-case letter all others; a
`wordEdge` asks for the edge of a word or for its absence, and an `edge` for the start or the end of
the text or of a line. -/
inductive Atom where
  | literal (c : Char)
  | byte (c : Char)
  | shorthand (isNegated : Bool)
  | anyCharacter
  | wordEdge
  | edge
  deriving DecidableEq

namespace Atom

/-- The character that an atom stands for. -/
def value? : Atom → Option Char
  | literal c => some c
  | byte c => some c
  | _ => none

/-- An atom can be matched. Among single bytes, one beyond ASCII is never a whole character. -/
def isSupported (m : Mode) : Atom → Bool
  | literal _ => !(m.wholeCharacters && m.ignoresCase)
  | byte c => if m.wholeCharacters then !m.ignoresCase else c.toNat < 128
  | shorthand isNegated => !m.wholeCharacters && !isNegated
  | anyCharacter => m.wholeCharacters
  | wordEdge => !m.wholeCharacters
  | edge => true

/-- An atom can be a member of a class: it stands for characters, among single bytes for ASCII. -/
def isMember (m : Mode) (a : Atom) : Bool :=
  match a with
  | literal c | byte c => if m.wholeCharacters then !m.ignoresCase else c.toNat < 128
  | shorthand _ => a.isSupported m
  | _ => false

/-- The value of a hexadecimal digit. -/
def hexDigit? (c : Char) : Option Nat :=
  if 'a' ≤ c ∧ c ≤ 'f' then some (c.toNat - 'a'.toNat + 10)
  else if 'A' ≤ c ∧ c ≤ 'F' then some (c.toNat - 'A'.toNat + 10)
  else digitValue c

/-- Read hexadecimal digits behind a value. -/
def hexDigits? (m : Mode) : Nat → Nat → List Char → Option (Nat × List Char)
  | 0, value, text => some (value, m.skip text)
  | count + 1, value, text =>
    match m.skip text with
    | [] => none
    | c :: rest => (hexDigit? c).bind fun digit => hexDigits? m count (value * 16 + digit) rest

/-- Read a character that is written by its number. -/
def numbered? (m : Mode) (count : Nat) (text : List Char) : Option (Char × List Char) :=
  (hexDigits? m count 0 text).bind fun (value, rest) =>
    if value.isValidChar then some (Char.ofNat value, rest) else none

/-- The control characters that have a letter. -/
def controlLetters : List (Char × Char) :=
  [('a', '\x07'), ('f', '\x0c'), ('n', '\n'), ('r', '\r'), ('t', '\t'), ('v', '\x0b')]

/-- Read the text behind a backslash. Every ASCII character stands for itself there that is no
letter and no digit and does not point at the edge of a word. -/
def escaped? (m : Mode) : List Char → Option (Atom × List Char)
  | [] => none
  | 'x' :: rest => (numbered? m 2 rest).map fun (c, rest) => (byte c, rest)
  | 'u' :: rest => (numbered? m 4 rest).map fun (c, rest) => (literal c, rest)
  | 'U' :: rest => (numbered? m 8 rest).map fun (c, rest) => (literal c, rest)
  | c :: rest =>
    if ['d', 's', 'w'].contains c then some (shorthand false, rest)
    else if ['D', 'S', 'W'].contains c then some (shorthand true, rest)
    else if ['b', 'B', '<', '>'].contains c then some (wordEdge, rest)
    else if ['A', 'z'].contains c then some (edge, rest)
    else if c.toNat < 128 && !c.isAlphanum then some (literal c, rest)
    else (controlLetters.find? (·.1 = c)).map fun (_, control) => (literal control, rest)

/-- Read a character or what is escaped. -/
def character? (m : Mode) : List Char → Option (Atom × List Char)
  | [] => none
  | '\\' :: rest => escaped? m rest
  | c :: rest => some (literal c, rest)

/-- Read an atom outside a class. -/
def read? (m : Mode) : List Char → Option (Atom × List Char)
  | '.' :: rest => some (anyCharacter, rest)
  | '^' :: rest => some (edge, rest)
  | '$' :: rest => some (edge, rest)
  | text => character? m text

/-- In the standard mode everything is supported but shorthands and edges of words. -/
theorem isSupported_standard (a : Atom) :
    a.isSupported .standard = true ↔ (∀ negated, a ≠ .shorthand negated) ∧ a ≠ .wordEdge := by
  cases a <;> simp [isSupported, Mode.standard]

end Atom

end FuturesChains.ValuePattern
