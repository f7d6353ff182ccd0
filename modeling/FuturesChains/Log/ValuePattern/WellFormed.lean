import FuturesChains.Log.ValuePattern.CharacterClass
import FuturesChains.Text.Alphabetic
import FuturesChains.Text.Letters

/-!
# Patterns for the values of fields

A log filter can ask for the value of a field by a pattern: characters, classes and places, one
after the other, repeated, in groups, or as alternatives. No entry has such a field, so what a
pattern matches is never asked; but a filter with a pattern that cannot be matched is malformed.
`isWellFormed_of_plain` says that a text without signs matches itself.
-/

namespace FuturesChains.ValuePattern

/-- A group that is not closed yet: the mode of the part that comes next, the depths of the parts
of the last alternative, and the depths of the alternatives before it. A part that is no more than
flags has no depth and cannot be repeated. -/
structure OpenGroup where
  mode : Mode
  parts : List (Option Nat)
  alternatives : List Nat

namespace OpenGroup

/-- A group with nothing in it. -/
def empty (m : Mode) : OpenGroup := ⟨m, [], []⟩

/-- The depth of the last alternative. -/
def lastDepth (g : OpenGroup) : Nat := joinedDepth (g.parts.map (·.getD 0))

/-- The depth of what is in the group. -/
def depth (g : OpenGroup) : Nat := joinedDepth (g.lastDepth :: g.alternatives)

/-- A group with another part. -/
def add (g : OpenGroup) (depth : Nat) : OpenGroup :=
  ⟨g.mode, some depth :: g.parts, g.alternatives⟩

/-- A group with flags behind its parts. -/
def addFlags (g : OpenGroup) (flags : Flags) : OpenGroup :=
  ⟨flags.apply g.mode, none :: g.parts, g.alternatives⟩

/-- A group with an empty alternative behind the others. -/
def alternate (g : OpenGroup) : OpenGroup := ⟨g.mode, [], g.lastDepth :: g.alternatives⟩

/-- A group whose last part is repeated, if there is one. -/
def repeat? (g : OpenGroup) : Option OpenGroup :=
  match g.parts with
  | some depth :: parts => some ⟨g.mode, some (depth + 1) :: parts, g.alternatives⟩
  | _ => none

end OpenGroup

/-- What stands behind an opening parenthesis: flags for the parts behind them, or the start of a
group with flags of its own and perhaps a name. -/
inductive Opening where
  | settings (flags : Flags)
  | group (flags : Flags) (name : Option String)

/-- Names of groups: a letter or a low line, then also digits, points and brackets. -/
def isGroupName (name : List Char) : Bool :=
  match name with
  | [] => false
  | c :: rest =>
    (c = '_' || Text.isAlphabetic c)
      && rest.all fun c => Text.isAlphanumeric c || ['_', '.', '[', ']'].contains c

/-- Read the name of a group up to the angle bracket; no two groups have the same name. -/
def groupName? (names : List String) (text : List Char) : Option (String × List Char) :=
  let name := text.takeWhile (· != '>')
  match text.drop name.length with
  | [] => none
  | _ :: rest =>
    if isGroupName name && !names.contains (String.ofList name) then
      some (String.ofList name, rest)
    else none

/-- Read what stands behind an opening parenthesis. -/
def opening? (m : Mode) (names : List String) (text : List Char) :
    Option (Opening × List Char) :=
  let named rest := (groupName? names rest).map fun (name, rest) =>
    (Opening.group [] (some name), rest)
  match m.skip text with
  | '?' :: 'P' :: '<' :: rest => named rest
  | '?' :: '<' :: rest => named rest
  | '?' :: rest =>
    let flags := rest.takeWhile fun c => c != ':' && c != ')'
    if !Flags.isValid flags then none
    else match rest.drop flags.length with
      | ':' :: rest => some (.group flags none, rest)
      | ')' :: rest => if flags.isEmpty then none else some (.settings flags, rest)
      | _ => none
  | rest => some (.group [] none, rest)

/-- Read a pattern to its end: its depth. `outer` holds the groups around, `names` the names of
groups so far, and every round takes a character. -/
def depthFrom? : Nat → OpenGroup → List OpenGroup → List String → List Char → Option Nat
  | 0, _, _, _, _ => none
  | rounds + 1, here, outer, names, text =>
    match here.mode.skip text with
    | [] => if outer.isEmpty then some here.depth else none
    | '(' :: rest =>
      match opening? here.mode names rest with
      | none => none
      | some (.settings flags, rest) => depthFrom? rounds (here.addFlags flags) outer names rest
      | some (.group flags name, rest) =>
        depthFrom? rounds (.empty (flags.apply here.mode)) (here :: outer) (name.toList ++ names)
          rest
    | ')' :: rest =>
      match outer with
      | [] => none
      | parent :: outer => depthFrom? rounds (parent.add (here.depth + 1)) outer names rest
    | '|' :: rest => depthFrom? rounds here.alternate outer names rest
    | '[' :: rest => (class? here.mode rest).bind fun (depth, rest) =>
      depthFrom? rounds (here.add depth) outer names rest
    | '\x7b' :: _ => none
    | c :: rest =>
      if ['?', '*', '+'].contains c then
        -- a question mark behind a repetition makes it as short as can be
        let rest := if rest.head? = some '?' then rest.tail else rest
        here.repeat?.bind fun here => depthFrom? rounds here outer names rest
      else (Atom.read? here.mode (c :: rest)).bind fun (atom, rest) =>
        if atom.isSupported here.mode then depthFrom? rounds (here.add 0) outer names rest
        else none

/-- The deepest nesting that a pattern may have. -/
def depthLimit : Nat := 250

/-- A text is a pattern that can be matched. -/
def isWellFormed (text : List Char) : Bool :=
  (depthFrom? (text.length + 1) (.empty .standard) [] [] text).any (· ≤ depthLimit)

/-- The signs of a pattern. Every other character stands for itself. -/
def signs : List Char := ['\\', '.', '^', '$', '(', ')', '|', '[', '\x7b', '?', '*', '+']

/-- Characters that stand for themselves are parts one after the other. -/
theorem depthFrom?_of_plain {text : List Char} {g : OpenGroup} (names : List String)
    (hm : g.mode = .standard) (h : ∀ c ∈ text, c ∉ signs) {rounds : Nat}
    (hr : text.length < rounds) :
    depthFrom? rounds g [] names text = some (text.foldl (fun g _ => g.add 0) g).depth := by
  induction text generalizing g rounds with
  | nil =>
    obtain ⟨n, rfl⟩ := Nat.exists_eq_add_one_of_ne_zero (Nat.ne_of_gt hr)
    simp [depthFrom?, hm, Mode.skip, Mode.standard]
  | cons c rest ih =>
    obtain ⟨n, rfl⟩ := Nat.exists_eq_add_one_of_ne_zero (Nat.ne_of_gt (Nat.zero_lt_of_lt hr))
    have hc := h c (List.mem_cons_self)
    simp only [signs, List.mem_cons, List.not_mem_nil, or_false, not_or] at hc
    obtain ⟨hbs, hdot, hup, hend, hopen, hclose, hbar, hclass, hbrace, hq, hs, hp⟩ := hc
    have hread : Atom.read? .standard (c :: rest) = some (.literal c, rest) := by
      simp [Atom.read?, Atom.character?, hdot, hup, hend]
    have hnext := @ih (g.add 0) (by simpa [OpenGroup.add] using hm)
      (fun d hd => h d (List.mem_cons_of_mem c hd)) n (by simpa using hr)
    have hskip : Mode.standard.skip (c :: rest) = c :: rest := rfl
    have hfits : (Atom.literal c).isSupported .standard = true := rfl
    rw [List.foldl_cons, ← hnext]
    simp [depthFrom?, hm, hskip, hq, hs, hp, hread, hfits]

/-- Parts without depth are at most one level deep together. -/
theorem joinedDepth_replicate_zero_le (n : Nat) : joinedDepth (List.replicate n 0) ≤ 1 := by
  have hmax : ∀ n, (List.replicate n 0).foldl max 0 = 0 := by
    intro n
    induction n with
    | zero => rfl
    | succ n ih => simpa [List.replicate_succ] using ih
  unfold joinedDepth
  split
  · exact Nat.zero_le 1
  · rename_i depth h
    have : depth = 0 := List.eq_of_mem_replicate (h ▸ List.mem_singleton_self depth)
    omega
  · exact Nat.le_of_eq (congrArg (· + 1) (hmax n))

/-- What parts without depth add to a group. -/
theorem foldl_add_zero (text : List Char) (g : OpenGroup) :
    text.foldl (fun g _ => g.add 0) g
      = ⟨g.mode, List.replicate text.length (some 0) ++ g.parts, g.alternatives⟩ := by
  induction text generalizing g with
  | nil => rfl
  | cons c rest ih =>
    rw [List.foldl_cons, ih]
    simp [OpenGroup.add, List.replicate_succ', List.append_assoc]

/-- A text without signs is a pattern, which matches the text. -/
theorem isWellFormed_of_plain {text : List Char} (h : ∀ c ∈ text, c ∉ signs) :
    isWellFormed text = true := by
  rw [isWellFormed, depthFrom?_of_plain [] rfl h (Nat.lt_succ_self _), foldl_add_zero]
  have := joinedDepth_replicate_zero_le text.length
  simp only [OpenGroup.depth, OpenGroup.lastDepth, OpenGroup.empty, List.append_nil,
    List.map_replicate, Option.getD_some, Option.any_some]
  exact decide_eq_true (Nat.le_trans this (by decide : 1 ≤ depthLimit))

/-- A text is a number with a plus sign: digits with a point anywhere or nowhere and perhaps an
exponent, or the name of infinity or of no number. -/
def isSignedNumber (text : List Char) : Bool :=
  match text with
  | '+' :: number =>
    let named := ["inf", "infinity", "nan"].any fun name =>
      Text.sameLetters name (String.ofList number)
    let whole := number.takeWhile Char.isDigit
    let fraction := match number.drop whole.length with
      | '.' :: rest => rest.takeWhile Char.isDigit
      | _ => []
    let ending := match number.drop whole.length with
      | '.' :: rest => rest.drop fraction.length
      | rest => rest
    let exponent := match ending with
      | [] => true
      | e :: rest =>
        let digits := match rest with
          | '+' :: digits => digits
          | '-' :: digits => digits
          | digits => digits
        (e = 'e' || e = 'E') && !digits.isEmpty && digits.all Char.isDigit
    named || ((!whole.isEmpty || !fraction.isEmpty) && exponent)
  | _ => false

/-- A text can be the value of a field in a filter: a number or a pattern. A number that does not
begin with a plus sign is a pattern as well. -/
def isValue (text : List Char) : Bool := isSignedNumber text || isWellFormed text

end FuturesChains.ValuePattern
