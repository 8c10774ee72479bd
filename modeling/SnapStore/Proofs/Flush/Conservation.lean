import SnapStore.Proofs.Flush.Ledger

namespace SnapStore.Flush

/-!
# What becomes of the pending save

A request makes a save pending or joins the one that is.  From there the save goes one of three ways:
it is dropped, the writer takes it because it is due, or the writer takes it because it is to stop.
Nothing else makes a save and nothing else uses one up, in whatever order things are done with a signal
and whatever the clock says.

* `Signal.perform` — one thing that is done with a signal; `events` and `after` are what comes of many.
* `Signal.held_perform` — what one of them means for the pending save.
* `closed_after_iff` — a signal is closed once it has been closed.
* `saves_are_accounted_for` — over every history, as many saves are made pending as have gone one of
  the three ways or are pending still; a closed signal has at most one left, and only for the writer to
  stop with.
-/

/-- What can be done with a signal, by callers and by the writer, with the clock readings that it
takes. -/
inductive Action
  | request (now : Nat)
  | cancel
  | close
  | /-- The writer looks whether there is something to do. -/ decide (now : Nat)
  | finish
  deriving DecidableEq, Repr

/-- What comes of it. -/
inductive Event
  | requested (o : Outcome)
  | cancelled (was_pending : Bool)
  | closed
  | decided (d : Decision)
  | /-- There is nothing to do for the writer yet. -/ waited
  | finished
  deriving DecidableEq, Repr

/-- Does something with a signal. -/
def Signal.perform (t : Timing) (s : Signal) : Action → Event × Signal
  | .request now =>
    let (o, s) := s.request now
    (.requested o, s)
  | .cancel =>
    let (was_pending, s) := s.cancel
    (.cancelled was_pending, s)
  | .close => (.closed, s.close)
  | .decide now =>
    match s.decide? t now with
    | some (d, s) => (.decided d, s)
    | none => (.waited, s)
  | .finish => (.finished, s.finish)

/-- What comes of doing one thing after another with a signal. -/
def events (t : Timing) : Signal → List Action → List Event
  | _, [] => []
  | s, a :: as => (s.perform t a).1 :: events t (s.perform t a).2 as

/-- The signal after one thing after another has been done with it. -/
def after (t : Timing) (s : Signal) (as : List Action) : Signal :=
  as.foldl (fun s a => (s.perform t a).2) s

/-- The number of pending saves. -/
def Signal.held (s : Signal) : Nat := if s.pending.isSome then 1 else 0

theorem Signal.held_le_one (s : Signal) : s.held ≤ 1 := by
  unfold held
  split <;> omega

@[simp] theorem Signal.held_close (s : Signal) : s.close.held = s.held := rfl

@[simp] theorem Signal.held_finish (s : Signal) : s.finish.held = s.held := rfl

variable {t : Timing} {s : Signal} {a : Action} {as : List Action}

/-! ### One thing -/

namespace Signal

/-- **The pending save.** Whatever is done with a signal, a save that is pending before or is made pending
is taken, is dropped or is pending after it. -/
theorem held_perform (t : Timing) (s : Signal) (a : Action) :
    [(s.perform t a).1].count (.requested .scheduled) + s.held =
      [(s.perform t a).1].count (.decided .flush) +
        [(s.perform t a).1].count (.decided (.shutdown true)) +
        [(s.perform t a).1].count (.cancelled true) + (s.perform t a).2.held := by
  cases a with
  | request now =>
    simp only [perform, request]
    cases hclosed : s.closed with
    | true => simp [held]
    | false => cases hp : s.pending <;> simp [held, hp]
  | cancel => cases hp : s.pending <;> simp [perform, cancel, held, hp]
  | close | finish => simp [perform]
  | decide now =>
    simp only [perform]
    cases hd : s.decide? t now with
    | none => simp
    | some r =>
      -- the writer takes what is pending, whether it is to stop or to save
      obtain ⟨d, s'⟩ := r
      obtain ⟨rfl, ⟨-, rfl⟩ | ⟨-, rfl, p, hp, -⟩⟩ := decide?_eq_some_iff.mp hd
      · cases hp : s.pending <;> simp [held, hp]
      · simp [held, hp]

theorem closed_perform (t : Timing) (s : Signal) (a : Action) :
    (s.perform t a).2.closed = true ↔ s.closed = true ∨ a = .close := by
  cases a with
  | request now =>
    simp only [perform, request]
    split
    · simp
    · cases s.pending <;> simp
  | cancel | finish => simp [perform, cancel, finish]
  | close => simp [perform, close]
  | decide now =>
    simp only [perform]
    cases hd : s.decide? t now with
    | none => simp
    | some r =>
      obtain ⟨d, s'⟩ := r
      obtain ⟨rfl, -⟩ := decide?_eq_some_iff.mp hd
      simp

/-- A closed signal accepts nothing, and the writer makes no save of its own accord any more. -/
theorem perform_of_closed (hclosed : s.closed = true) (a : Action) :
    (s.perform t a).1 ≠ .requested .scheduled ∧ (s.perform t a).1 ≠ .decided .flush := by
  cases a with
  | request now => simp [perform, request_of_closed hclosed]
  | cancel | close | finish => simp [perform]
  | decide now =>
    simp only [perform]
    cases hd : s.decide? t now with
    | none => simp
    | some r =>
      obtain ⟨d, s'⟩ := r
      obtain ⟨-, ⟨-, rfl⟩ | ⟨hopen, -⟩⟩ := decide?_eq_some_iff.mp hd
      · simp
      · rw [hclosed] at hopen
        cases hopen

/-- The writer only stops when the signal is closed. -/
theorem perform_ne_shutdown (hopen : s.closed = false) (a : Action) (b : Bool) :
    (s.perform t a).1 ≠ .decided (.shutdown b) := by
  cases a with
  | request now | cancel | close | finish => simp [perform]
  | decide now =>
    simp only [perform]
    cases hd : s.decide? t now with
    | none => simp
    | some r =>
      obtain ⟨d, s'⟩ := r
      obtain ⟨-, ⟨hclosed, -⟩ | ⟨-, rfl, -⟩⟩ := decide?_eq_some_iff.mp hd
      · rw [hopen] at hclosed
        cases hclosed
      · simp

end Signal

/-! ### One thing after another -/

theorem events_cons (t : Timing) (s : Signal) (a : Action) (as : List Action) :
    events t s (a :: as) = [(s.perform t a).1] ++ events t (s.perform t a).2 as := rfl

theorem after_cons (t : Timing) (s : Signal) (a : Action) (as : List Action) :
    after t s (a :: as) = after t (s.perform t a).2 as := rfl

/-- The pending save over a whole history. -/
theorem held_after (t : Timing) (s : Signal) (as : List Action) :
    (events t s as).count (.requested .scheduled) + s.held =
      (events t s as).count (.decided .flush) + (events t s as).count (.decided (.shutdown true)) +
        (events t s as).count (.cancelled true) + (after t s as).held := by
  induction as generalizing s with
  | nil => simp [events, after]
  | cons a as ih =>
    have hstep := s.held_perform t a
    have hrest := ih (s.perform t a).2
    simp only [events_cons, after_cons, List.count_append]
    omega

/-- A signal is closed once it has been closed. -/
theorem closed_after_iff : (after t s as).closed = true ↔ s.closed = true ∨ .close ∈ as := by
  induction as generalizing s with
  | nil => simp [after]
  | cons a as ih =>
    rw [after_cons, ih, s.closed_perform, List.mem_cons, or_assoc, eq_comm (a := a)]

/-- Nothing is accepted by a closed signal, and the writer is not told to save. -/
theorem events_of_closed (hclosed : s.closed = true) :
    .requested .scheduled ∉ events t s as ∧ .decided .flush ∉ events t s as := by
  induction as generalizing s with
  | nil => simp [events]
  | cons a as ih =>
    obtain ⟨hrequest, hflush⟩ := Signal.perform_of_closed (t := t) hclosed a
    obtain ⟨hrequests, hflushes⟩ := ih ((s.closed_perform t a).mpr (.inl hclosed))
    rw [events_cons, List.singleton_append, List.mem_cons, List.mem_cons, not_or, not_or]
    exact ⟨⟨hrequest.symm, hrequests⟩, hflush.symm, hflushes⟩

/-- The writer stops with a save in hand at most once. -/
theorem count_shutdown_le_one (t : Timing) (s : Signal) (as : List Action) :
    (events t s as).count (.decided (.shutdown true)) ≤ 1 := by
  induction as generalizing s with
  | nil => simp [events]
  | cons a as ih =>
    cases hclosed : s.closed with
    | true =>
      -- all that is left is what was pending when the signal was closed
      have hheld := held_after t s (a :: as)
      rw [List.count_eq_zero.mpr (events_of_closed hclosed).1] at hheld
      have := s.held_le_one
      omega
    | false =>
      have hfirst : [(s.perform t a).1].count (.decided (.shutdown true)) = 0 :=
        List.count_eq_zero.mpr fun hmem =>
          Signal.perform_ne_shutdown hclosed a true (List.mem_singleton.mp hmem).symm
      have hrest := ih (s.perform t a).2
      rw [events_cons, List.count_append, hfirst]
      omega

/-- **Saves are accounted for.** Whatever is done with a fresh signal, and whatever the clock says: as many
saves have been made pending as the writer has taken, because they were due or because it was to stop,
have been dropped or are pending still.  A request joins a save exactly if one is pending and nobody
has closed the signal, and is refused exactly if somebody has.  After that the writer is never told to
save, and only once does it stop with a save in hand. -/
theorem saves_are_accounted_for (t : Timing) (as : List Action) :
    ((events t {} as).count (.requested .scheduled) =
      (events t {} as).count (.decided .flush) + (events t {} as).count (.decided (.shutdown true)) +
        (events t {} as).count (.cancelled true) +
        (if (after t {} as).pending.isSome then 1 else 0)) ∧
    (∀ now, ((after t {} as).perform t (.request now)).1 = .requested .coalesced ↔
      (after t {} as).pending.isSome = true ∧ .close ∉ as) ∧
    (∀ now, ((after t {} as).perform t (.request now)).1 = .requested .closed ↔ .close ∈ as) ∧
    (∀ bs, .decided .flush ∉ events t (after t {} (as ++ [.close])) bs) ∧
    (events t {} as).count (.decided (.shutdown true)) ≤ 1 := by
  have hclosed : (after t {} as).closed = true ↔ .close ∈ as := by
    rw [closed_after_iff]
    simp
  refine ⟨?_, fun now => ?_, fun now => ?_, fun bs => ?_, count_shutdown_le_one t {} as⟩
  · -- a fresh signal holds nothing
    simpa [Signal.held] using held_after t {} as
  · rw [← hclosed, Bool.not_eq_true, and_comm]
    simpa [Signal.perform] using Signal.request_eq_coalesced_iff
  · rw [← hclosed]
    simpa [Signal.perform] using Signal.request_eq_closed_iff
  · exact (events_of_closed (closed_after_iff.mpr (.inr (by simp)))).2

end SnapStore.Flush
