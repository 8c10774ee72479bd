namespace SnapStore.Flush

/-!
# The save signal

A host asks for saves far more often than it pays to make them.  The signal has room for one pending
save, which further requests join, and tells the writer when to make it: once the requests have been
quiet for a while, or when the first of them has waited long enough.

* `Signal.request`, `Signal.cancel` and `Signal.close` are what callers do with the signal.
* `Signal.decide?` and `Signal.finish` are what the writer does with it; between a decision and its
  end, a save is in flight.
* `Signal.isIdle` is what callers wait for.
* `Signal.request_eq_coalesced_iff` and its neighbours say which request gets which answer.

Times are readings of a clock, in milliseconds.
-/

/-- How long a save waits. -/
structure Timing where
  /-- How long there must be no request. -/
  delay : Nat := 0
  /-- How long requests can postpone the save of the first one. -/
  maxDelay : Nat := 0
  deriving DecidableEq, Repr

/-- How long the first request can wait: never less than the delay. -/
def Timing.cap (t : Timing) : Nat := max t.maxDelay t.delay

/-- A pending save, by the clock readings of the first and the last request for it. -/
structure Pending where
  first : Nat
  last : Nat
  deriving DecidableEq, Repr

/-- When a pending save is due. -/
def Pending.due (p : Pending) (t : Timing) : Nat := min (p.last + t.delay) (p.first + t.cap)

/-- The state that callers and the writer share. -/
structure Signal where
  pending : Option Pending := none
  /-- Whether the writer is making a save. -/
  inFlight : Bool := false
  /-- Whether the writer has been asked to stop. -/
  closed : Bool := false
  deriving DecidableEq, Repr

/-- The answer to a request. -/
inductive Outcome
  | /-- There is a new pending save. -/ scheduled
  | /-- The request joined the pending save. -/ coalesced
  | /-- The writer has been asked to stop, so that nothing will happen. -/ closed
  deriving DecidableEq, Repr

/-- What the writer does next. -/
inductive Decision
  | /-- It makes a save. -/ flush
  | /-- It stops; `pending` tells whether a save was waiting. -/ shutdown (pending : Bool)
  deriving DecidableEq, Repr

namespace Signal

/-- Asks for a save, with the clock reading of the caller. -/
def request (now : Nat) (s : Signal) : Outcome × Signal :=
  if s.closed then (.closed, s)
  else
    match s.pending with
    | some p => (.coalesced, { s with pending := some { p with last := now } })
    | none => (.scheduled, { s with pending := some ⟨now, now⟩ })

/-- Drops the pending save and tells whether there was one. -/
def cancel (s : Signal) : Bool × Signal := (s.pending.isSome, { s with pending := none })

/-- Asks the writer to stop. -/
def close (s : Signal) : Signal := { s with closed := true }

/-- When the pending save is due. -/
def due? (t : Timing) (s : Signal) : Option Nat := s.pending.map (·.due t)

/-- The decision of the writer; there is none as long as nothing is due. -/
def decide? (t : Timing) (now : Nat) (s : Signal) : Option (Decision × Signal) :=
  if s.closed then
    some (.shutdown s.pending.isSome, { s with pending := none, inFlight := s.pending.isSome })
  else
    match s.pending with
    | some p =>
      if p.due t ≤ now then some (.flush, { s with pending := none, inFlight := true }) else none
    | none => none

/-- The writer is done with what it decided. -/
def finish (s : Signal) : Signal := { s with inFlight := false }

/-- Whether there is nothing to wait for: no save is in flight and none will be made. -/
def isIdle (s : Signal) : Bool := ! (s.pending.isSome && ! s.closed) && ! s.inFlight

/-! ### Answers -/

theorem request_eq_closed_iff {now : Nat} {s : Signal} :
    (s.request now).1 = .closed ↔ s.closed = true := by
  unfold request
  split
  · simp [*]
  · split <;> simp_all

theorem request_eq_coalesced_iff {now : Nat} {s : Signal} :
    (s.request now).1 = .coalesced ↔ s.closed = false ∧ s.pending.isSome = true := by
  unfold request
  split
  · simp [*]
  · split <;> simp_all

theorem request_eq_scheduled_iff {now : Nat} {s : Signal} :
    (s.request now).1 = .scheduled ↔ s.closed = false ∧ s.pending = none := by
  unfold request
  split
  · simp [*]
  · split <;> simp_all

/-- The writer decides at once when it is asked to stop, and otherwise when a save is due. -/
theorem decide?_isSome_iff {t : Timing} {now : Nat} {s : Signal} :
    (s.decide? t now).isSome = true ↔ s.closed = true ∨ ∃ p, s.pending = some p ∧ p.due t ≤ now := by
  unfold decide?
  split
  · simp [*]
  · split
    · split <;> simp_all
    · simp_all

end Signal

end SnapStore.Flush
