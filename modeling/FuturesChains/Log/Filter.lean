import FuturesChains.Log.Entry
import FuturesChains.Log.ValuePattern.WellFormed
import FuturesChains.Number.Numeral
import FuturesChains.Text.Alphabetic
import FuturesChains.Text.Blank
import FuturesChains.Text.Bytes
import FuturesChains.Text.Letters
import FuturesChains.Text.Split

/-!
# Log filters

A log filter is a list of directives. Each concerns the entries whose source starts with a target,
and sets the number of levels that are let through; the most specific directive that concerns an
entry decides about it. A directive is written as a level, as a target, or as a target and a level
with an equals sign between them, and directives are written with commas between them. Behind the
target there may be brackets with the name of a span, a field in braces and a pattern for the value
of that field. No entry is ever written inside a span, so a directive that asks for a span or a
value never concerns an entry. `enables_uniform` says what a filter without targets does.
-/

namespace FuturesChains

/-- A part of a log filter. `threshold` counts the levels that are let through; `spanOnly` marks a
directive that asks for a span or for the value of a span's field. -/
structure Directive where
  target : Option String
  field : Option String
  spanOnly : Bool
  threshold : Nat
  deriving DecidableEq

namespace Directive

/-- The threshold that lets everything through. -/
def fullThreshold : Nat := 5

/-- A directive for all entries. -/
def uniform (threshold : Nat) : Directive := ⟨none, none, false, threshold⟩

/-- The names of the thresholds, in any case of their letters. -/
def thresholdNames : List (String × Nat) :=
  [("off", 0), ("error", 1), ("warn", 2), ("info", 3), ("debug", 4), ("trace", 5)]

/-- Read a threshold: its number or its name. -/
def threshold? (text : List Char) : Option Nat :=
  let digits := match text with
    | '+' :: rest => rest
    | _ => text
  if !digits.isEmpty && digits.all Char.isDigit then
    let number := Numeral.ofDigits (digits.filterMap digitValue)
    if number ≤ fullThreshold then some number else none
  else
    (thresholdNames.find? fun entry => Text.sameLetters entry.1 (String.ofList text)).map (·.2)

/-- Read what stands behind an equals sign; nothing there stands for every level. -/
def levelPart? (text : List Char) : Option Nat :=
  if text.isEmpty then some fullThreshold else threshold? text

/-- The part of a text that begins behind some bytes and is as long as another text. -/
def piece? (written : List Char) (position : Nat) (part : List Char) : Option (List Char) :=
  (Text.afterBytes? position written).bind (Text.firstBytes? (Text.byteCount part))

/-- Read the end of a directive, which stands behind the first bytes of the text: nothing, or an
equals sign and a level. -/
def ending? (written : List Char) (position : Nat) : List Char → Option Nat
  | [] => some fullThreshold
  | '=' :: _ => (Text.afterBytes? (position + 1) written).bind levelPart?
  | _ => none

/-- Read the text behind an opening bracket: the name of a span, or a field in braces, or both, up
to the closing bracket and the end. A field that is named alone is looked for in entries too; a
value that is asked for is a pattern or a number. -/
def scoped? (written : List Char) (target : Option String) (position : Nat) (text : List Char) :
    Option Directive :=
  let span := text.takeWhile fun c => c != ']' && c != '\x7b'
  let position := position + Text.byteCount span + 1
  match text.drop span.length with
  | ']' :: rest => (ending? written position rest).map (⟨target, none, true, ·⟩)
  | '\x7b' :: rest =>
    let field := rest.takeWhile (· != '\x7d')
    match field, rest.drop field.length with
    | _ :: _, '\x7d' :: ']' :: rest => do
      let threshold ← ending? written (position + Text.byteCount field + 2) rest
      let parts := Text.splitOn '=' (← piece? written position field)
      let value := parts[1]?
      if value.all ValuePattern.isValue then
        let name := String.ofList (parts.headD [])
        some ⟨target, some name, !span.isEmpty || value.isSome, threshold⟩
      else none
    | _, _ => none
  | _ => none

/-- A character that a target may start with: a letter or a digit of any script, or a mark. -/
def startsTarget (c : Char) : Bool :=
  Text.isAlphanumeric c || ['-', ':', '_'].contains c

/-- Read a directive. Its parts are found in the text without the white space around it, and are
cut at the same positions from the text with it; so white space in front moves them. -/
def ofText? (written : List Char) : Option Directive :=
  let text := Text.trimmed written
  let word := text.takeWhile fun c => c != '=' && c != '['
  let position := Text.byteCount word
  match word, text.drop word.length with
  | [], '[' :: rest => scoped? written none 1 rest
  | [], _ => none
  | c :: _, behind =>
    if !startsTarget c then none
    else match behind with
      | [] => match threshold? written with
        | some threshold => some (uniform threshold)
        | none => some ⟨some (String.ofList written), none, false, fullThreshold⟩
      | '[' :: rest => (piece? written 0 word).bind fun target =>
        scoped? written (some (String.ofList target)) (position + 1) rest
      | _ => (piece? written 0 word).bind fun target =>
        (ending? written position behind).map (⟨some (String.ofList target), none, false, ·⟩)

/-- A directive concerns an entry. -/
def concerns (d : Directive) (e : LogEntry) : Bool :=
  !d.spanOnly && d.target.all (fun target => target.toList.isPrefixOf e.source.toList)
    && d.field.all e.hasField

/-- How much a directive asks of the source. -/
def reach (d : Directive) : Nat :=
  match d.target with
  | none => 0
  | some target => target.length + 1

/-- A directive gives way to a later one that is as specific: first the longer target counts, then
a field. -/
def yieldsTo (earlier later : Directive) : Bool :=
  earlier.reach < later.reach
    || (earlier.reach = later.reach && match earlier.field, later.field with
      | none, _ => true
      | some _, none => false
      | some a, some b => decide (a ≤ b))

end Directive

/-- Directives in the order in which they are written. -/
abbrev LogFilter := List Directive

namespace LogFilter

/-- The filter that holds where none is set: everything from the level of information up. -/
def standard : LogFilter := [.uniform 3]

/-- Read a filter. A text without directives lets nothing through. -/
def ofText? (text : String) : Option LogFilter :=
  let written := (Text.splitOn ',' text.toList).filter (!·.isEmpty)
  if written.isEmpty then some [.uniform 0] else written.mapM Directive.ofText?

/-- The filter for a setting; one that is malformed counts as not set. -/
def ofSetting (text : Option String) : LogFilter := (text.bind ofText?).getD standard

/-- The directive that decides about an entry. -/
def deciding? (f : LogFilter) (e : LogEntry) : Option Directive :=
  let choose (best : Option Directive) (d : Directive) : Option Directive :=
    match best with
    | none => some d
    | some chosen => if chosen.yieldsTo d then some d else best
  (List.filter (·.concerns e) f).foldl choose none

/-- A filter lets an entry through. -/
def enables (f : LogFilter) (e : LogEntry) : Bool :=
  (f.deciding? e).any (e.level.depth ≤ ·.threshold)

/-- A filter without targets lets through the levels down to its threshold. -/
theorem enables_uniform (threshold : Nat) (e : LogEntry) :
    enables [.uniform threshold] e = decide (e.level.depth ≤ threshold) := by
  simp [enables, deciding?, Directive.concerns, Directive.uniform]

end LogFilter

end FuturesChains
