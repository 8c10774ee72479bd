import SnapStore.Flush.Machine
import SnapStore.Proofs.Flush.Conservation

namespace SnapStore.Flush

/-!
# What a step means for the signal and for the writer

Callers and the writer do five things with a signal; all their other steps leave it alone.  Whether the
writer is woken up by a step is a matter of what is done with the signal as well.

* `Machine.action?` — what a step does with the signal.
* `Does` — what this means for the signal and for the writer; `does_of_step` says that it is all.
* `Does.closed` — a signal that is closed stays closed.
* `joining_of_step` — a caller only waits for the writer after it has closed the signal.
-/

/-- What a step does with the signal, if it touches the signal at all. -/
def Machine.action? (m : Machine) : Label → Option Action
  | .caller i _ =>
    match m.callers i with
    | .marking reading => some (.request reading)
    | .cancelling => some .cancel
    | .closing _ => some .close
    | _ => none
  | .writer now =>
    match m.writer with
    | .ready => some (.decide now)
    | .working _ => some .finish
    | _ => none
  | _ => none

/-- What a step means for the signal and for the writer.  A request that is accepted and the closing of the
signal wake up a writer that is asleep; dropping the pending save does not. -/
inductive Does (t : Timing) (m m' : Machine) (l : Machine.Label) : Option Action → Prop
  | rest (signal : m'.signal = m.signal) (writer : m'.writer = m.writer) : Does t m m' l none
  | wakes (till : Option Nat) (was : m.writer = .asleep till) (signal : m'.signal = m.signal)
      (writer : m'.writer = .ready) : Does t m m' l none
  | dies (label : l = .death) (was : m.writer.hasEnded = false) (signal : m'.signal = m.signal)
      (writer : m'.writer = .died) : Does t m m' l none
  | request (reading : Nat) (signal : m'.signal = (m.signal.request reading).2)
      (writer : m'.writer = if m.signal.closed then m.writer else m.writer.rouse) :
      Does t m m' l (some (.request reading))
  | cancel (signal : m'.signal = m.signal.cancel.2) (writer : m'.writer = m.writer) :
      Does t m m' l (some .cancel)
  | close (signal : m'.signal = m.signal.close) (writer : m'.writer = m.writer.rouse) :
      Does t m m' l (some .close)
  | looks (now : Nat) (was : m.writer = .ready)
      (look : (m'.writer, m'.signal) = Writer.look t now m.signal) : Does t m m' l (some (.decide now))
  | finishes (d : Decision) (was : m.writer = .working d) (signal : m'.signal = m.signal.finish)
      (writer : m'.writer = .after d) : Does t m m' l (some .finish)

variable {t : Timing} {m m' : Machine} {l : Machine.Label} {a : Option Action} {i : ThreadId}

private theorem does_of_stepCaller {now : Nat} (h : m.stepCaller i now = some m') :
    Does t m m' (.caller i now) (m.action? (.caller i now)) := by
  cases hi : m.callers i <;> simp only [Machine.stepCaller, hi] at h <;> simp only [Machine.action?, hi]
  case outside | dozing => cases h
  case requesting | awaiting =>
    cases h
    exact .rest rfl rfl
  case marking reading =>
    cases h
    refine .request reading rfl ?_
    -- a request is refused exactly if the signal is closed
    show (if (m.signal.request reading).1 = .closed then m.writer else m.writer.rouse) = _
    simp only [Signal.request_eq_closed_iff]
  case cancelling =>
    cases h
    refine .cancel rfl ?_
    simp only [Machine.move]
    split <;> rfl
  case closing join =>
    cases h
    exact .close rfl rfl
  case joining =>
    split at h <;> cases h
    exact .rest rfl rfl
  case checking deadline =>
    split at h
    · cases h
      exact .rest rfl rfl
    · split at h <;> cases h <;> exact .rest rfl rfl

private theorem does_of_stepWriter {now : Nat} (h : m.stepWriter t now = some m') :
    Does t m m' (.writer now) (m.action? (.writer now)) := by
  cases hw : m.writer <;> simp only [Machine.stepWriter, hw] at h <;> simp only [Machine.action?, hw]
  case ready =>
    cases h
    exact .looks now hw rfl
  case working d =>
    cases h
    exact .finishes d hw rfl rfl
  case asleep | stopped | died => cases h

/-- **One step.** A step is one of the five things that are done with a signal, or the writer wakes up or
dies, or neither the signal nor the writer has anything to do with it. -/
theorem does_of_step (h : m.step t l = some m') : Does t m m' l (m.action? l) := by
  cases l with
  | caller i now => exact does_of_stepCaller h
  | writer now => exact does_of_stepWriter h
  | call i task | wakeCaller i =>
    simp only [Machine.step] at h
    split at h <;> cases h
    exact .rest rfl rfl
  | wakeWriter =>
    simp only [Machine.step] at h
    split at h <;> cases h
    rename_i till was
    exact .wakes till was rfl rfl
  | death =>
    simp only [Machine.step] at h
    split at h <;> cases h
    rename_i was
    exact .dies rfl (Bool.of_not_eq_true was) rfl rfl

/-- What is done with the signal says what becomes of it. -/
theorem Does.signal_eq (h : Does t m m' l a) : m'.signal = a.elim m.signal fun a =>
    (m.signal.perform t a).2 := by
  cases h with
  | rest signal | wakes _ _ signal | dies _ _ signal | request _ signal | cancel signal | close signal
  | finishes _ _ signal => exact signal
  | looks now was look =>
    rw [Prod.mk.injEq] at look
    rw [look.2, Option.elim_some]
    simp only [Writer.look, Signal.perform]
    cases m.signal.decide? t now <;> rfl

/-- A signal that is closed stays closed. -/
theorem Does.closed (h : Does t m m' l a) (hclosed : m.signal.closed = true) : m'.signal.closed = true := by
  rw [h.signal_eq]
  cases a with
  | none => exact hclosed
  | some a => exact (m.signal.closed_perform t a).mpr (.inl hclosed)

/-! ### Who waits for the writer -/

@[simp] theorem Machine.callers_move_self (m : Machine) (i : ThreadId) (q : Caller) :
    (m.move i q).callers i = q := goTo_self ..

theorem Machine.callers_move_of_ne (m : Machine) {i j : ThreadId} (q : Caller) (h : j ≠ i) :
    (m.move i q).callers j = m.callers j := goTo_of_ne m.callers q h

theorem Caller.eq_joining_of_rouse {q : Caller} (h : q.rouse = .joining) : q = .joining := by
  cases q <;> first | exact h | cases h

/-- A caller that goes on to another place and waits for the writer there has closed the signal. -/
theorem joining_of_move {n : Machine} {q : Caller} {j : ThreadId}
    (hmove : m' = n.move j q) (hothers : ∀ i, (n.callers i) = .joining → m.callers i = .joining)
    (hq : q = .joining → m'.signal.closed = true) (hi : m'.callers i = .joining) :
    m.callers i = .joining ∨ m'.signal.closed = true := by
  by_cases hij : i = j
  · rw [hmove, hij, Machine.callers_move_self] at hi
    exact .inr (hq hi)
  · rw [hmove, Machine.callers_move_of_ne n q hij] at hi
    exact .inl (hothers i hi)

/-- A caller waits for the writer if it has been waiting, or has just closed the signal. -/
theorem joining_of_step (h : m.step t l = some m') (hi : m'.callers i = .joining) :
    m.callers i = .joining ∨ m'.signal.closed = true := by
  cases l with
  | call j task =>
    simp only [Machine.step] at h
    split at h <;> cases h
    exact joining_of_move rfl (fun _ => id) (fun hq => by cases task <;> cases hq) hi
  | wakeCaller j =>
    simp only [Machine.step] at h
    split at h <;> cases h
    exact joining_of_move rfl (fun _ => id) (fun hq => by cases hq) hi
  | wakeWriter | death =>
    simp only [Machine.step] at h
    split at h <;> cases h
    exact .inl hi
  | writer now =>
    simp only [Machine.step, Machine.stepWriter] at h
    split at h <;> cases h
    · exact .inl hi
    · exact .inl (Caller.eq_joining_of_rouse hi)
  | caller j now =>
    simp only [Machine.step] at h
    cases hj : m.callers j <;> simp only [Machine.stepCaller, hj] at h
    case outside | dozing => cases h
    case requesting | awaiting | marking =>
      cases h
      exact joining_of_move rfl (fun _ => id) (fun hq => by cases hq) hi
    case cancelling =>
      cases h
      refine joining_of_move rfl (fun k hk => ?_) (fun hq => by cases hq) hi
      -- callers that are woken up do not wait for the writer
      split at hk
      · exact Caller.eq_joining_of_rouse hk
      · exact hk
    case closing join =>
      cases h
      exact joining_of_move rfl (fun _ => id) (fun _ => rfl) hi
    case joining =>
      split at h <;> cases h
      exact joining_of_move rfl (fun _ => id) (fun hq => by cases hq) hi
    case checking deadline =>
      split at h
      · cases h
        exact joining_of_move rfl (fun _ => id) (fun hq => by cases hq) hi
      · split at h <;> cases h <;> exact joining_of_move rfl (fun _ => id) (fun hq => by cases hq) hi

end SnapStore.Flush
