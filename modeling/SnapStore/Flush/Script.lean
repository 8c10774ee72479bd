import SnapStore.Diagnostic
import SnapStore.Flush.Machine

namespace SnapStore.Flush

/-!
# Scripts for a save signal

A script is what one thread does with a signal, one command after another, while a worker of its own
may serve the signal.  Time is virtual: it passes only while the thread waits, and then as far as the
next thing that can happen.  The worker gets its turn whenever the thread waits.  There is one worker
at most: a new one is there already when the one before it is asked to stop, which closes the signal
for both.

* `Script.run` carries out a script and gives a reply to every command.
* `Script.step` carries out one command.
-/

/-- What a worker has come to. -/
structure Worker where
  writer : Writer := .ready
  /-- Whether the worker dies as soon as it has decided something. -/
  frail : Bool := false
  /-- The decisions of the worker, oldest first. -/
  seen : List Decision := []
  deriving Repr

/-- One step of a worker, unless it has to wait. -/
def Worker.step? (t : Timing) (now : Nat) (w : Worker) (s : Signal) : Option (Worker × Signal) :=
  match w.writer with
  | .ready =>
    let (writer, s) := Writer.look t now s
    match writer with
    | .working d =>
      if w.frail then some ({ w with writer := .died }, s)
      else some ({ w with writer, seen := w.seen ++ [d] }, s)
    | _ => some ({ w with writer }, s)
  | .asleep (some till) => if till ≤ now then some ({ w with writer := .ready }, s) else none
  | .working d => some ({ w with writer := .after d }, s.finish)
  | _ => none

/-- At most `fuel` steps of a worker. -/
def Worker.steps (t : Timing) (now : Nat) : Nat → Worker → Signal → Worker × Signal
  | 0, w, s => (w, s)
  | fuel + 1, w, s =>
    match w.step? t now s with
    | some (w, s) => w.steps t now fuel s
    | none => (w, s)

/-- When a sleeping worker will wake up. -/
def Worker.wakeTime? (w : Worker) : Option Nat :=
  match w.writer with
  | .asleep till => till
  | _ => none

namespace Script

/-- What the thread does. -/
inductive Command
  | request | cancel | close | finish
  | waitIdle (timeout : Nat)
  | sleep (time : Nat)
  | /-- Starts the stopwatch. -/ mark
  | /-- Waits for a decision, as the writer does; the bounds are compared with the stopwatch. -/
    wait (atLeast lessThan : Option Nat)
  | /-- Starts a worker in place of the one that is there. -/ spawn (frail : Bool)
  | /-- Asks the worker to stop and waits until it has. -/ dropWorker
  deriving Repr

/-- What the thread is told. -/
inductive Reply
  | nothing
  | requested (o : Outcome)
  | truth (b : Bool)
  | decided (d : Option Decision) (atLeast lessThan : Option Bool)
  | dropped (had : Bool) (seen : List Decision) (log : List LogEntry)
  deriving Repr

/-- The signal, its worker and the time. -/
structure State where
  timing : Timing
  signal : Signal := {}
  worker : Option Worker := none
  /-- What workers that are gone decided, and what became of them, since that was last told. -/
  seen : List Decision := []
  log : List LogEntry := []
  now : Nat := 0
  /-- When the stopwatch was started. -/
  mark : Nat := 0
  deriving Repr

/-- The steps that a worker takes at most at one time: with no request in between there is no more
than one save. -/
def turn : Nat := 8

/-- The worker goes on until it has to wait. -/
def State.settle (s : State) : State :=
  match s.worker with
  | none => s
  | some w =>
    let (w, signal) := w.steps s.timing s.now turn s.signal
    { s with worker := some w, signal }

/-- The worker is woken up. -/
def State.rouse (s : State) : State :=
  { s with worker := s.worker.map fun w => { w with writer := w.writer.rouse } }

/-- The worker does until the given time what it has to do, and then it is that time. -/
def State.passUntil (s : State) (time : Nat) : State :=
  let s := s.settle
  let s := match s.worker.bind (·.wakeTime?) with
    | some due => if due ≤ time then { s with now := max s.now due }.settle else s
    | none => s
  { s with now := max s.now time }

/-- Waits until the signal is idle, or else until the deadline. -/
def State.waitIdle (s : State) (deadline : Nat) : Bool × State :=
  if s.signal.isIdle then (true, s)
  else if deadline ≤ s.now then (false, s)
  else
    let s := s.settle
    if s.signal.isIdle then (true, s)
    else
      match s.worker.bind (·.wakeTime?) with
      | some due =>
        if due ≤ deadline then
          let s := { s with now := max s.now due }.settle
          if s.signal.isIdle then (true, s) else (false, { s with now := deadline })
        else (false, { s with now := deadline })
      | none => (false, { s with now := deadline })

/-- Waits for a decision. -/
def State.wait (s : State) : Option Decision × State :=
  match s.signal.decide? s.timing s.now with
  | some (d, signal) => (some d, { s with signal })
  | none =>
    let s := s.passUntil ((s.signal.due? s.timing).getD s.now)
    match s.signal.decide? s.timing s.now with
    | some (d, signal) => (some d, { s with signal })
    | none => (none, s)

/-- The log entry for a worker that has died. -/
def deathLog : LogEntry := ⟨.warning, "model cache writer thread panicked"⟩

/-- The worker, if there is one, is asked to stop, goes on until it has, and is gone. -/
def State.retire (s : State) : State :=
  if s.worker.isNone then s
  else
    let s := { s with signal := s.signal.close }.rouse.settle
    match s.worker with
    | some w =>
      { s with worker := none, seen := s.seen ++ w.seen
               log := s.log ++ if w.writer = .died then [deathLog] else [] }
    | none => s

/-- Carries out a command. -/
def step (s : State) : Command → Reply × State
  | .request =>
    let (o, signal) := s.signal.request s.now
    let s := { s with signal }
    (.requested o, if o = .closed then s else s.rouse)
  | .cancel =>
    let (was_pending, signal) := s.signal.cancel
    (.truth was_pending, { s with signal })
  | .close => (.nothing, { s with signal := s.signal.close }.rouse)
  | .finish => (.nothing, { s with signal := s.signal.finish })
  | .waitIdle timeout =>
    let (b, s) := s.waitIdle (s.now + timeout)
    (.truth b, s)
  | .sleep time => (.nothing, s.passUntil (s.now + time))
  | .mark => (.nothing, { s with mark := s.now })
  | .wait atLeast lessThan =>
    let (d, s) := s.wait
    let elapsed := s.now - s.mark
    (.decided d (atLeast.map fun n => decide (n ≤ elapsed))
      (lessThan.map fun n => decide (elapsed < n)), s)
  | .spawn frail => (.nothing, { s.retire with worker := some { frail } })
  | .dropWorker =>
    let had := s.worker.isSome
    let s := s.retire
    (.dropped had s.seen s.log, { s with seen := [], log := [] })

/-- Carries out a script on a fresh signal. -/
def run (t : Timing) (script : List Command) : List Reply :=
  let (replies, _) := script.foldl (fun (replies, s) c =>
    let (r, s) := step s c
    (r :: replies, s)) (([] : List Reply), ({ timing := t } : State))
  replies.reverse

end Script

end SnapStore.Flush
