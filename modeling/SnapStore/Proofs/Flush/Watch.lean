import SnapStore.Flush.Machine
import SnapStore.Proofs.Flush.Ledger

namespace SnapStore.Flush

/-!
# Threads with a ledger

A watch is a signal with its threads and, beside them, the ledger of its requests.  The ledger only looks
on: it never decides which steps there are.

* `Watch.step` is one step of one thread.
* `Turn` — what a step can do to the signal, to the writer and to the ledger; `turn_of_step` says that
  this is all.
* `Watch.Valid` — the ledger fits the signal, and the signal is what the writer has made of it.  Every
  reachable watch is valid.
-/

/-- A signal with its threads and the ledger of its requests. -/
structure Watch where
  machine : Machine := .start
  ledger : Ledger := []
  /-- How many requests had been accepted when a caller last began to wait. -/
  since : ThreadId → Nat := fun _ => 0

namespace Writer

/-- Whether the writer looks at the signal, or will when it wakes up. -/
def attends : Writer → Bool
  | .ready | .asleep _ => true
  | _ => false

/-- Whether the writer has decided to stop, and has not died. -/
def isLeaving : Writer → Bool
  | .working (.shutdown _) | .stopped => true
  | _ => false

/-- The writer is where it was, has fallen asleep or woken up, or has died. -/
def Drifts (before after : Writer) : Prop :=
  after = before ∨ before.attends = true ∧ after.attends = true ∨ after = .died

namespace Drifts

variable {before after : Writer}

theorem attends (h : Drifts before after) (ha : after.attends = true) : before.attends = true := by
  rcases h with rfl | ⟨hb, -⟩ | rfl
  · exact ha
  · exact hb
  · cases ha

theorem eq_working (h : Drifts before after) {d : Decision} (ha : after = .working d) :
    before = .working d := by
  subst ha
  rcases h with h | ⟨-, h⟩ | h
  · exact h.symm
  · cases h
  · cases h

theorem isLeaving (h : Drifts before after) (ha : after.isLeaving = true) :
    before.isLeaving = true := by
  rcases h with rfl | ⟨-, hb⟩ | rfl
  · exact ha
  · cases after with
    | ready | asleep => cases ha
    | _ => cases hb
  · cases ha

end Drifts

theorem drifts_rouse (w : Writer) : Drifts w w.rouse := by
  cases w with
  | asleep till => exact .inr (.inl ⟨rfl, rfl⟩)
  | _ => exact .inl rfl

end Writer

namespace Watch

/-- The ledger after a step. -/
def note (t : Timing) (l : Machine.Label) (w : Watch) : Ledger :=
  match l with
  | .caller i _ =>
    match w.machine.callers i with
    | .marking reading => w.ledger.accept (w.machine.signal.request reading).1
    | .cancelling => w.ledger.cancel
    | _ => w.ledger
  | .writer now =>
    match w.machine.writer with
    | .ready => if (w.machine.signal.decide? t now).isSome then w.ledger.take else w.ledger
    | .working _ => w.ledger.finish
    | _ => w.ledger
  | _ => w.ledger

/-- A caller that begins to wait counts the requests so far. -/
def noteSince (l : Machine.Label) (w : Watch) : ThreadId → Nat :=
  match l with
  | .call i (.waitIdle _) => goTo w.since i w.ledger.length
  | _ => w.since

/-- One step of one thread. -/
def step (t : Timing) (l : Machine.Label) (w : Watch) : Option Watch :=
  (w.machine.step t l).map fun machine => ⟨machine, w.note t l, w.noteSince l⟩

/-- The ledger only looks on: every run of the signal is a run of the watch. -/
theorem exists_run {t : Timing} {w : Watch} {ls : List Machine.Label} {m : Machine}
    (h : run (Machine.step t) w.machine ls = some m) :
    ∃ v, run (Watch.step t) w ls = some v ∧ v.machine = m := by
  refine exists_run_of_run (fun l w => ?_) h
  rw [step, Option.map_map]
  exact Option.map_id' ..

end Watch

/-! ### What a step can do -/

/-- What a step can do to the signal, to the writer and to the ledger. -/
inductive Turn (t : Timing) (w v : Watch) : Prop
  | quiet (signal_eq : v.machine.signal = w.machine.signal) (ledger_eq : v.ledger = w.ledger)
      (drifts : w.machine.writer.Drifts v.machine.writer)
  | accept (reading : Nat) (signal_eq : v.machine.signal = (w.machine.signal.request reading).2)
      (ledger_eq : v.ledger = w.ledger.accept (w.machine.signal.request reading).1)
      (drifts : w.machine.writer.Drifts v.machine.writer)
  | cancel (signal_eq : v.machine.signal = w.machine.signal.cancel.2)
      (ledger_eq : v.ledger = w.ledger.cancel) (drifts : w.machine.writer.Drifts v.machine.writer)
  | close (signal_eq : v.machine.signal = w.machine.signal.close) (ledger_eq : v.ledger = w.ledger)
      (drifts : w.machine.writer.Drifts v.machine.writer)
  | decide (now : Nat) (d : Decision) (was_ready : w.machine.writer = .ready)
      (decided : w.machine.signal.decide? t now = some (d, v.machine.signal))
      (ledger_eq : v.ledger = w.ledger.take) (working : v.machine.writer = .working d)
  | finish (d : Decision) (was_working : w.machine.writer = .working d)
      (signal_eq : v.machine.signal = w.machine.signal.finish) (ledger_eq : v.ledger = w.ledger.finish)
      (after : v.machine.writer = .after d)

variable {t : Timing} {l : Machine.Label} {w v : Watch}

private theorem turn_of_stepCaller {i : ThreadId} {now : Nat}
    (h : w.step t (.caller i now) = some v) : Turn t w v := by
  obtain ⟨m, hm, rfl⟩ := Option.map_eq_some_iff.mp h
  replace hm : w.machine.stepCaller i now = some m := hm
  cases hi : w.machine.callers i <;> simp only [Machine.stepCaller, hi] at hm
  case outside | dozing => cases hm
  case requesting | awaiting =>
    cases hm
    exact .quiet rfl (by simp [Watch.note, hi]) (.inl rfl)
  case marking reading =>
    cases hm
    refine .accept reading rfl (by simp [Watch.note, hi]) ?_
    -- a request that is not accepted wakes nobody
    show w.machine.writer.Drifts (if (w.machine.signal.request reading).1 = .closed then
      w.machine.writer else w.machine.writer.rouse)
    by_cases ho : (w.machine.signal.request reading).1 = .closed
    · rw [if_pos ho]
      exact .inl rfl
    · rw [if_neg ho]
      exact Writer.drifts_rouse _
  case cancelling =>
    cases hm
    refine .cancel rfl (by simp [Watch.note, hi]) (.inl ?_)
    -- callers may be woken up, but not the writer
    simp only [Machine.move]
    split <;> rfl
  case closing join =>
    cases hm
    exact .close rfl (by simp [Watch.note, hi]) (Writer.drifts_rouse _)
  case joining =>
    split at hm <;> cases hm
    exact .quiet rfl (by simp [Watch.note, hi]) (.inl rfl)
  case checking deadline =>
    split at hm
    · cases hm
      exact .quiet rfl (by simp [Watch.note, hi]) (.inl rfl)
    · split at hm <;> cases hm <;> exact .quiet rfl (by simp [Watch.note, hi]) (.inl rfl)

private theorem turn_of_stepWriter {now : Nat} (h : w.step t (.writer now) = some v) :
    Turn t w v := by
  obtain ⟨m, hm, rfl⟩ := Option.map_eq_some_iff.mp h
  replace hm : w.machine.stepWriter t now = some m := hm
  unfold Machine.stepWriter at hm
  split at hm <;> rename_i hw
  · unfold Writer.look at hm
    cases hd : w.machine.signal.decide? t now with
    | none =>
      rw [hd] at hm
      cases hm
      exact .quiet rfl (by simp [Watch.note, hw, hd]) (.inr (.inl ⟨by rw [hw]; rfl, rfl⟩))
    | some r =>
      -- whatever was pending is now in the hand of the writer
      rw [hd] at hm
      cases hm
      exact .decide now r.1 hw hd (by simp [Watch.note, hw, hd]) rfl
  · rename_i d
    cases hm
    exact .finish d hw rfl (by simp [Watch.note, hw]) rfl
  · cases hm

/-- **One step.** A step leaves the signal alone, or is one of the five things that can be done with
it. -/
theorem turn_of_step (h : w.step t l = some v) : Turn t w v := by
  cases l with
  | caller i now => exact turn_of_stepCaller h
  | writer now => exact turn_of_stepWriter h
  | call i task =>
    obtain ⟨m, hm, rfl⟩ := Option.map_eq_some_iff.mp h
    simp only [Machine.step] at hm
    split at hm
    · cases hm
      exact .quiet rfl rfl (.inl rfl)
    · cases hm
  | wakeCaller i =>
    obtain ⟨m, hm, rfl⟩ := Option.map_eq_some_iff.mp h
    simp only [Machine.step] at hm
    split at hm
    · cases hm
      exact .quiet rfl rfl (.inl rfl)
    · cases hm
  | wakeWriter =>
    obtain ⟨m, hm, rfl⟩ := Option.map_eq_some_iff.mp h
    simp only [Machine.step] at hm
    split at hm
    · rename_i till hw
      cases hm
      exact .quiet rfl rfl (.inr (.inl ⟨by rw [hw]; rfl, rfl⟩))
    · cases hm
  | death =>
    obtain ⟨m, hm, rfl⟩ := Option.map_eq_some_iff.mp h
    simp only [Machine.step] at hm
    split at hm
    · cases hm
    · cases hm
      exact .quiet rfl rfl (.inr (.inr rfl))

/-! ### Valid watches -/

/-- The ledger fits the signal, and the signal is what the writer has made of it. -/
structure Watch.Valid (w : Watch) : Prop where
  fits : w.ledger.Fits w.machine.signal
  /-- A writer that looks at the signal has nothing in hand. -/
  attentive : w.machine.writer.attends = true → w.machine.signal.inFlight = false
  /-- A writer that makes a save has it in hand. -/
  busy : w.machine.writer = .working .flush → w.machine.signal.inFlight = true
  /-- A writer only leaves a signal that is closed, and leaves nothing behind. -/
  leaving : w.machine.writer.isLeaving = true →
    w.machine.signal.closed = true ∧ w.machine.signal.pending = none
  /-- Callers have counted requests that are in the ledger. -/
  counted : ∀ i, w.since i ≤ w.ledger.length

theorem Watch.valid_start : Watch.Valid {} where
  fits := Ledger.fits_nil
  attentive := fun _ => rfl
  busy := fun h => by cases h
  leaving := fun h => by cases h
  counted := fun _ => Nat.le_refl 0

/-- The ledger only grows. -/
theorem Turn.length_le (h : Turn t w v) : w.ledger.length ≤ v.ledger.length := by
  cases h with
  | quiet _ hl _ | close _ hl _ => exact Nat.le_of_eq (by rw [hl])
  | accept reading _ hl _ =>
    rw [hl]
    cases (w.machine.signal.request reading).1 <;> simp [Ledger.accept]
  | cancel _ hl _ => exact Nat.le_of_eq (by rw [hl, Ledger.cancel, List.length_map])
  | decide _ _ _ _ hl _ => exact Nat.le_of_eq (by rw [hl, Ledger.take, List.length_map])
  | finish _ _ _ hl _ => exact Nat.le_of_eq (by rw [hl, Ledger.finish, List.length_map])

/-- What is settled stays settled. -/
theorem Turn.settled (h : Turn t w v) {k : Nat} (hk : w.ledger.Settled k) : v.ledger.Settled k := by
  cases h with
  | quiet _ hl _ | close _ hl _ => rwa [hl]
  | accept _ _ hl _ => rw [hl]; exact Ledger.settled_accept hk _
  | cancel _ hl _ => rw [hl]; exact Ledger.settled_cancel hk
  | decide _ _ _ _ hl _ => rw [hl]; exact Ledger.settled_take hk
  | finish _ _ _ hl _ => rw [hl]; exact Ledger.settled_finish hk

theorem Turn.fits (h : Turn t w v) (hw : w.Valid) : v.ledger.Fits v.machine.signal := by
  cases h with
  | quiet hs hl _ => rw [hs, hl]; exact hw.fits
  | accept reading hs hl _ => rw [hs, hl]; exact hw.fits.accept reading
  | cancel hs hl _ => rw [hs, hl]; exact hw.fits.cancel
  | close hs hl _ => rw [hs, hl]; exact hw.fits.close
  | decide now d hready hd hl _ =>
    rw [hl]
    exact hw.fits.take (hw.attentive (by rw [hready]; rfl)) hd
  | finish _ _ hs hl _ => rw [hs, hl]; exact hw.fits.finish

/-- What the writer is doing agrees with the signal after a step, as it did before. -/
theorem Turn.writer_agrees (h : Turn t w v) (hw : w.Valid) :
    (v.machine.writer.attends = true → v.machine.signal.inFlight = false) ∧
      (v.machine.writer = .working .flush → v.machine.signal.inFlight = true) ∧
      (v.machine.writer.isLeaving = true →
        v.machine.signal.closed = true ∧ v.machine.signal.pending = none) := by
  cases h with
  | quiet hs _ hd =>
    rw [hs]
    exact ⟨fun h => hw.attentive (hd.attends h), fun h => hw.busy (hd.eq_working h),
      fun h => hw.leaving (hd.isLeaving h)⟩
  | accept reading hs _ hd =>
    rw [hs, Signal.request_inFlight]
    refine ⟨fun h => hw.attentive (hd.attends h), fun h => hw.busy (hd.eq_working h), ?_⟩
    intro h
    -- a signal that is closed accepts nothing
    have hleft := hw.leaving (hd.isLeaving h)
    rwa [Signal.request_of_closed hleft.1]
  | cancel hs _ hd =>
    rw [hs]
    exact ⟨fun h => hw.attentive (hd.attends h), fun h => hw.busy (hd.eq_working h),
      fun h => ⟨(hw.leaving (hd.isLeaving h)).1, rfl⟩⟩
  | close hs _ hd =>
    rw [hs]
    exact ⟨fun h => hw.attentive (hd.attends h), fun h => hw.busy (hd.eq_working h),
      fun h => ⟨rfl, (hw.leaving (hd.isLeaving h)).2⟩⟩
  | decide now d _ hdecided _ hv =>
    rw [hv]
    refine ⟨fun h => (by cases h), fun h => ?_, fun h => ?_⟩
    -- a save is only made of what was pending, and nothing is left when the writer is to stop
    all_goals obtain ⟨hs, ⟨hclosed, rfl⟩ | ⟨-, rfl, p, hp, -⟩⟩ := Signal.decide?_eq_some_iff.mp hdecided
    · cases h
    · rw [hs, hp]
      rfl
    · rw [hs]
      exact ⟨hclosed, rfl⟩
    · cases h
  | finish d hd hs _ hv =>
    rw [hv, hs]
    refine ⟨fun _ => rfl, fun h => (by cases d <;> cases h), ?_⟩
    intro h
    cases d with
    | flush => cases h
    | shutdown b => exact hw.leaving (by rw [hd]; rfl)

/-- A caller that begins to wait counts the requests that are in the ledger. -/
theorem Watch.noteSince_le (h : ∀ i, w.since i ≤ w.ledger.length) (i : ThreadId) :
    w.noteSince l i ≤ w.ledger.length := by
  unfold Watch.noteSince
  split
  · rename_i j timeout
    by_cases hij : i = j
    · exact Nat.le_of_eq (by rw [hij, goTo_self])
    · rw [goTo_of_ne w.since _ hij]
      exact h i
  · exact h i

/-- **Every step keeps it.** A step of a valid watch leads to a valid watch. -/
theorem Watch.Valid.step (hw : w.Valid) (h : w.step t l = some v) : v.Valid := by
  have turn := turn_of_step h
  obtain ⟨attentive, busy, leaving⟩ := turn.writer_agrees hw
  refine ⟨turn.fits hw, attentive, busy, leaving, ?_⟩
  intro i
  have hsince : v.since = w.noteSince l := by
    obtain ⟨m, -, rfl⟩ := Option.map_eq_some_iff.mp h
    rfl
  rw [hsince]
  exact Nat.le_trans (Watch.noteSince_le hw.counted i) turn.length_le

/-- The watches that there can be are valid. -/
theorem Watch.valid_of_reachable (h : Reachable (Watch.step t) {} w) : w.Valid :=
  h.induction Watch.valid_start fun _ _ _ hw hs => hw.step hs

/-- What is settled stays settled along every run. -/
theorem Watch.settled_of_reachable (h : Reachable (Watch.step t) w v) {k : Nat}
    (hk : w.ledger.Settled k) : v.ledger.Settled k :=
  h.induction (P := fun v => v.ledger.Settled k) hk fun _ _ _ hu hs => (turn_of_step hs).settled hu

end SnapStore.Flush
