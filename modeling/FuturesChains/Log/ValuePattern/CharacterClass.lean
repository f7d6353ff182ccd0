import FuturesChains.Log.ValuePattern.Atom

/-!
# Character classes of a pattern

A class stands in brackets: characters, ranges, named ASCII sets and further classes, and operators
between such sets. A closing bracket that comes first, and minus signs that come first, stand for
themselves. What a class contains does not matter here, only how deep its parts are nested.
-/

namespace FuturesChains.ValuePattern

/-- The depth of parts side by side: one part alone adds no level. -/
def joinedDepth : List Nat → Nat
  | [] => 0
  | [depth] => depth
  | depths => depths.foldl max 0 + 1

/-- A class that is not closed yet: the depths of its members since the last operator, the depth of
the set on the left of that operator, and whether a first closing bracket or minus sign may come. -/
structure OpenClass where
  members : List Nat
  left : Option Nat
  isLeading : Bool

namespace OpenClass

/-- The depth of the set up to here. -/
def depth (c : OpenClass) : Nat :=
  match c.left with
  | none => joinedDepth c.members
  | some left => max left (joinedDepth c.members) + 1

/-- A class with another member. -/
def add (c : OpenClass) (depth : Nat) : OpenClass :=
  ⟨depth :: c.members, c.left, false⟩

/-- A class with an operator behind it: what was read is the left side. -/
def operate (c : OpenClass) : OpenClass := ⟨[], some c.depth, false⟩

/-- Read the start of a class behind the bracket. Among single bytes, all but the members of a class
would not be whole characters. -/
def start? (m : Mode) (text : List Char) : Option (OpenClass × List Char) :=
  match m.skip text with
  | '^' :: rest => if m.wholeCharacters then some (⟨[], none, true⟩, m.skip rest) else none
  | rest => some (⟨[], none, true⟩, rest)

end OpenClass

/-- The names of the ASCII sets. -/
def setNames : List String :=
  ["alnum", "alpha", "ascii", "blank", "cntrl", "digit", "graph", "lower", "print", "punct",
    "space", "upper", "word", "xdigit"]

/-- Read the name of an ASCII set behind a bracket, between colons; a circumflex before the name
asks for all other characters. -/
def namedSet? (text : List Char) : Option (Bool × List Char) :=
  match text with
  | ':' :: rest =>
    let (isNegated, rest) := match rest with
      | '^' :: rest => (true, rest)
      | _ => (false, rest)
    let name := rest.takeWhile (· != ':')
    match rest.drop name.length with
    | ':' :: ']' :: rest =>
      if setNames.contains (String.ofList name) then some (isNegated, rest) else none
    | _ => none
  | _ => none

/-- A named set can be a member of a class. -/
def isSetSupported (m : Mode) (isNegated : Bool) : Bool :=
  if m.wholeCharacters then !m.ignoresCase else !isNegated

/-- Read a character, a shorthand or a range; the first character of a range comes before the last
one or is the same. -/
def member? (m : Mode) (text : List Char) : Option (List Char) :=
  (Atom.character? m text).bind fun (first, rest) =>
    if !first.isMember m then none
    else match m.skip rest with
      | '-' :: behind =>
        if [some ']', some '-'].contains (m.peek behind) then some ('-' :: behind)
        else (Atom.character? m (m.skip behind)).bind fun (last, rest) =>
          match first.value?, last.value? with
          | some lower, some upper =>
            if lower ≤ upper && last.isMember m then some rest else none
          | _, _ => none
      | rest => some rest

/-- Read a class up to its closing bracket: its depth and the rest of the text. `outer` holds the
classes around it, and every round takes a character. -/
def classFrom? (m : Mode) :
    Nat → List OpenClass → OpenClass → List Char → Option (Nat × List Char)
  | 0, _, _, _ => none
  | rounds + 1, outer, here, text =>
    match m.skip text with
    | [] => none
    | '[' :: rest =>
      match namedSet? rest with
      | some (isNegated, rest) =>
        if isSetSupported m isNegated then classFrom? m rounds outer (here.add 0) rest else none
      | none => (OpenClass.start? m rest).bind fun (inner, rest) =>
        classFrom? m rounds (here :: outer) inner rest
    | ']' :: rest =>
      if here.isLeading && here.members.isEmpty then
        if (Atom.literal ']').isMember m then classFrom? m rounds outer (here.add 0) rest else none
      else match outer with
        | [] => some (here.depth + 1, rest)
        | parent :: outer => classFrom? m rounds outer (parent.add (here.depth + 1)) rest
    | c :: rest =>
      if c = '-' && here.isLeading then
        if (Atom.literal '-').isMember m then
          classFrom? m rounds outer ⟨0 :: here.members, none, true⟩ rest
        else none
      else if ['&', '-', '~'].contains c && rest.head? = some c then
        classFrom? m rounds outer here.operate rest.tail
      else (member? m (c :: rest)).bind fun rest => classFrom? m rounds outer (here.add 0) rest

/-- Read a class behind its opening bracket: its depth and the rest of the text. -/
def class? (m : Mode) (text : List Char) : Option (Nat × List Char) :=
  (OpenClass.start? m text).bind fun (here, rest) => classFrom? m (text.length + 1) [] here rest

end FuturesChains.ValuePattern
