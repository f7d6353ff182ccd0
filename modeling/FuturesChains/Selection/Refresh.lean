import FuturesChains.Selection.Resolve

/-!
# Refreshes

A refresh is a sequence of chain universes that is resolved one pull at a time. Symbols come in the
order of the selector, and a symbol that was taken before is skipped. A symbol that is no future, or
whose resolution fails, gives an error and ends the sequence. `next_eq_ok` says all that a pull
does. The main statement, `left_next_lt`, says that every pull that yields something leaves fewer
symbols; `drain` pulls to the end.
-/

namespace FuturesChains

/-- A refresh under way: the symbols to come and those taken. -/
structure Refresh where
  model : SelectionModel
  context : SelectionContext
  pending : List Symbol
  seen : List Symbol
  done : Bool

/-- What one pull gave: the symbol, whether a new security was asked for, the outcome, and the
engine's counts right after it. -/
structure Pull where
  symbol : Symbol
  isNew : Bool
  outcome : Except SelectionError ChainUniverse
  counts : EngineCounts

/-- The outcome is a universe. -/
def Pull.isUniverse (p : Pull) : Bool :=
  match p.outcome with
  | .ok _ => true
  | .error _ => false

/-- Begin a refresh: the schedule moves on and the selector is asked. -/
def SelectionModel.refresh (m : SelectionModel) (ctx : SelectionContext) :
    Refresh × SelectionModel :=
  let (symbols, model) := (m.stamp ctx.time).ask ctx.time
  ({ model
     context := ctx
     pending := symbols
     seen := []
     done := false },
    model)

namespace Refresh

/-- The symbols that further pulls may take. -/
def left (r : Refresh) : Nat := if r.done then 0 else r.pending.length

/-- The next symbol that is to be taken, and the symbols behind it: one that is no future or that
has not been seen. -/
def nextSymbol (seen : List Symbol) : List Symbol → Option (Symbol × List Symbol)
  | [] => none
  | s :: rest => if s.kind = .future ∧ s ∈ seen then nextSymbol seen rest else some (s, rest)

/-- Pull once. Nothing is left after an error or at the end of the symbols. -/
def next (r : Refresh) (e : Engine) : Except Halt (Option (Pull × Refresh) × Engine) :=
  if r.done then .ok (none, e)
  else match nextSymbol r.seen r.pending with
    | none => .ok (none, e)
    | some (s, rest) => do
      let isNew := s.kind = .future && (e.registry.find? s.toCanonical).isNone
      let (outcome, e) ← r.model.resolve r.context e s
      let pull : Pull := ⟨s, isNew, outcome, e.counts⟩
      return (some (pull, { r with
        pending := rest
        seen := s :: r.seen
        done := !pull.isUniverse }), e)

theorem length_nextSymbol {seen pending rest : List Symbol} {s : Symbol}
    (h : nextSymbol seen pending = some (s, rest)) : rest.length < pending.length := by
  induction pending with
  | nil => simp [nextSymbol] at h
  | cons t tail ih =>
    unfold nextSymbol at h
    split at h
    · exact Nat.lt_succ_of_lt (ih h)
    · obtain ⟨-, rfl⟩ := by simpa using h
      simp

/-- The refresh after a pull that left some symbols behind. -/
def taking (r : Refresh) (p : Pull) (behind : List Symbol) : Refresh :=
  { r with
    pending := behind
    seen := p.symbol :: r.seen
    done := !p.isUniverse }

/-- All that a pull does: it yields nothing at the end and leaves the engine, or it resolves the
next symbol. -/
theorem next_eq_ok {r : Refresh} {e after : Engine} {result : Option (Pull × Refresh)}
    (h : r.next e = .ok (result, after)) :
    match result with
    | none => after = e ∧ (r.done = true ∨ nextSymbol r.seen r.pending = none)
    | some (p, r') => r.done = false ∧ ∃ behind,
        nextSymbol r.seen r.pending = some (p.symbol, behind) ∧
          r.model.resolve r.context e p.symbol = .ok (p.outcome, after) ∧
          r' = r.taking p behind := by
  unfold next at h
  split at h
  · rename_i hdone
    cases h
    exact ⟨rfl, .inl hdone⟩
  · rename_i hdone
    split at h
    · rename_i hnext
      cases h
      exact ⟨rfl, .inr hnext⟩
    · rename_i s behind hnext
      rw [Halt.bind_eq_ok] at h
      obtain ⟨⟨outcome, after⟩, hresolve, h⟩ := h
      cases h
      exact ⟨by simpa using hdone, behind, hnext, hresolve, rfl⟩

/-- A pull that yields something leaves fewer symbols. -/
theorem left_next_lt {r r' : Refresh} {e e' : Engine} {p : Pull}
    (h : r.next e = .ok (some (p, r'), e')) : r'.left < r.left := by
  obtain ⟨hdone, behind, hnext, -, rfl⟩ := next_eq_ok h
  have hlt := length_nextSymbol hnext
  have hleft : r.left = r.pending.length := by simp [left, hdone]
  have hbehind : (r.taking p behind).left ≤ behind.length := by
    unfold left
    split
    · exact Nat.zero_le _
    · exact Nat.le_refl _
  omega

/-- Pull to the end. -/
def drain (r : Refresh) (e : Engine) : Except Halt (List Pull × Engine) :=
  match h : r.next e with
  | .error stop => .error stop
  | .ok (none, e) => .ok ([], e)
  | .ok (some (p, r'), e') =>
    have := left_next_lt h
    (drain r' e').map fun (pulls, e) => (p :: pulls, e)
  termination_by r.left

/-- Draining is one pull, and what is left is drained if the pull yields something. -/
theorem drain_eq (r : Refresh) (e : Engine) :
    r.drain e = r.next e >>= fun
      | (none, e) => .ok ([], e)
      | (some (p, r'), e) => (r'.drain e).map fun (pulls, e) => (p :: pulls, e) := by
  rw [drain]
  split
  · rename_i h
    rw [h]
    rfl
  · rename_i h
    rw [h]
    rfl
  · rename_i h
    simp only [h]
    rfl

/-- Pull a number of times, beyond the end if need be. -/
def pulls (r : Refresh) (e : Engine) : Nat → Except Halt (List (Option Pull) × Engine)
  | 0 => .ok ([], e)
  | count + 1 => do
    match ← r.next e with
    | (none, e) => (r.pulls e count).map fun (rest, e) => (none :: rest, e)
    | (some (p, r'), e) => (r'.pulls e count).map fun (rest, e) => (some p :: rest, e)

end Refresh

end FuturesChains
