import SnapStore.Run
import SnapStore.Flush.Signal

namespace SnapStore.Flush

/-!
# Threads on a save signal

One writer and any number of callers share a signal.  A caller reads the clock and takes the lock of
the signal in two steps, so that other threads can come in between; everything that happens under the
lock is one step.

* `Writer` and `Caller` say where a thread stands.
* `Machine.step` is one step of one thread.  A clock reading is part of the label of the step that
  takes it; whether the readings of a run are in order is up to the statement about the run.
* `Machine.start` is the state in which the writer is about to look at a fresh signal.

A sleeping thread can wake up at any time, as one that waits for a condition can.

Times are numbers without a bound, so that the end of a wait is always the reading of the clock plus the time
to wait.  A clock whose readings are bounded has no such reading for a time to wait that is too long, and a
caller that asks for one breaks off with a panic before it takes the lock; this is left out.
-/

/-- Where the writer stands. -/
inductive Writer
  | /-- About to look at the signal. -/ ready
  | /-- Asleep, until the given time if there is one. -/ asleep (till : Option Nat)
  | /-- Busy with what it decided. -/ working (d : Decision)
  | /-- Past its last decision. -/ stopped
  | /-- Dead before that. -/ died
  deriving DecidableEq, Repr

namespace Writer

/-- A sleeping writer is woken up. -/
def rouse : Writer → Writer
  | .asleep _ => .ready
  | w => w

/-- The writer looks at the signal. -/
def look (t : Timing) (now : Nat) (s : Signal) : Writer × Signal :=
  match s.decide? t now with
  | some (d, s) => (.working d, s)
  | none => (.asleep (s.due? t), s)

/-- The writer is done with a decision. -/
def after : Decision → Writer
  | .flush => .ready
  | .shutdown _ => .stopped

/-- Whether the thread of the writer has ended. -/
def hasEnded : Writer → Bool
  | .stopped | .died => true
  | _ => false

end Writer

/-- What a caller asks for. -/
inductive Task
  | request
  | cancel
  | close
  | /-- Waits until nothing is pending or in flight, but not longer than this. -/
    waitIdle (timeout : Nat)
  | /-- Asks the writer to stop and waits until it has. -/ join
  deriving DecidableEq, Repr

/-- What a caller is told. -/
inductive Answer
  | requested (o : Outcome)
  | cancelled (was_pending : Bool)
  | closed
  | idle (b : Bool)
  | joined (died : Bool)
  deriving DecidableEq, Repr

/-- Where a caller stands. -/
inductive Caller
  | /-- Outside, with the answer to its last task. -/ outside (last : Option Answer)
  | /-- About to read the clock for a request. -/ requesting
  | /-- About to take the lock for a request of the given time. -/ marking (reading : Nat)
  | cancelling
  | /-- About to close the signal, and then perhaps to wait for the writer. -/
    closing (join : Bool)
  | joining
  | /-- About to read the clock for a wait. -/ awaiting (timeout : Nat)
  | /-- About to look whether the signal is idle. -/ checking (deadline : Nat)
  | /-- Asleep until something has changed. -/ dozing (deadline : Nat)
  deriving DecidableEq, Repr

namespace Caller

/-- The start of a task. -/
def start : Task → Caller
  | .request => .requesting
  | .cancel => .cancelling
  | .close => .closing false
  | .waitIdle timeout => .awaiting timeout
  | .join => .closing true

/-- A sleeping caller is woken up. -/
def rouse : Caller → Caller
  | .dozing deadline => .checking deadline
  | c => c

/-- The end of a task. -/
def done (a : Answer) : Caller := .outside (some a)

end Caller

/-- A signal with its threads. -/
structure Machine where
  signal : Signal := {}
  writer : Writer := .ready
  callers : ThreadId → Caller := fun _ => .outside none

namespace Machine

/-- One step. -/
inductive Label
  | /-- A caller that is outside takes up a task. -/ call (i : ThreadId) (task : Task)
  | /-- A caller goes on, at the given time. -/ caller (i : ThreadId) (now : Nat)
  | /-- The writer goes on, at the given time. -/ writer (now : Nat)
  | /-- A caller that is asleep wakes up. -/ wakeCaller (i : ThreadId)
  | /-- The writer, asleep, wakes up. -/ wakeWriter
  | /-- The writer dies. -/ death
  deriving DecidableEq, Repr

/-- The initial state. -/
def start : Machine := {}

/-- The callers that wait for the signal to be idle are woken up. -/
def rouseCallers (m : Machine) : Machine := { m with callers := fun i => (m.callers i).rouse }

/-- A caller goes on to another place. -/
def move (m : Machine) (i : ThreadId) (c : Caller) : Machine :=
  { m with callers := goTo m.callers i c }

/-- The step of a caller at the given time. -/
def stepCaller (i : ThreadId) (now : Nat) (m : Machine) : Option Machine :=
  match m.callers i with
  | .outside _ => none
  | .requesting => some (m.move i (.marking now))
  | .marking reading =>
    let (o, s) := m.signal.request reading
    let writer := if o = .closed then m.writer else m.writer.rouse
    some ({ m with signal := s, writer }.move i (.done (.requested o)))
  | .cancelling =>
    let (was_pending, s) := m.signal.cancel
    let m := if was_pending && ! m.signal.inFlight then m.rouseCallers else m
    some ({ m with signal := s }.move i (.done (.cancelled was_pending)))
  | .closing join =>
    some ({ m with signal := m.signal.close, writer := m.writer.rouse }.move i
      (if join then .joining else .done .closed))
  | .joining =>
    if m.writer.hasEnded then some (m.move i (.done (.joined (m.writer = .died)))) else none
  | .awaiting timeout => some (m.move i (.checking (now + timeout)))
  | .checking deadline =>
    if m.signal.isIdle then some (m.move i (.done (.idle true)))
    else if deadline ≤ now then some (m.move i (.done (.idle false)))
    else some (m.move i (.dozing deadline))
  | .dozing _ => none

/-- The step of the writer at the given time. -/
def stepWriter (t : Timing) (now : Nat) (m : Machine) : Option Machine :=
  match m.writer with
  | .ready =>
    let (writer, signal) := Writer.look t now m.signal
    some { m with writer, signal }
  | .working d => some { m.rouseCallers with writer := .after d, signal := m.signal.finish }
  | _ => none

/-- One step of one thread. -/
def step (t : Timing) : Label → Machine → Option Machine
  | .call i task, m =>
    match m.callers i with
    | .outside _ => some (m.move i (.start task))
    | _ => none
  | .caller i now, m => m.stepCaller i now
  | .writer now, m => m.stepWriter t now
  | .wakeCaller i, m =>
    match m.callers i with
    | .dozing deadline => some (m.move i (.checking deadline))
    | _ => none
  | .wakeWriter, m =>
    match m.writer with
    | .asleep _ => some { m with writer := .ready }
    | _ => none
  | .death, m => if m.writer.hasEnded then none else some { m with writer := .died }

end Machine

end SnapStore.Flush
