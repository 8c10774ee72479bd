import SnapStore.Cache.Load
import SnapStore.Cache.Save
import SnapStore.Cache.Invalidate

namespace SnapStore.Cache

/-!
# The threads of a cache

A cache has a writer, which makes the saves that have been scheduled, and any number of callers.  One
step of one thread is as much as it does without giving others a chance: it ends where the thread
takes or releases a lane or the lock of the signal, or turns to the slot, the holder or the clock.

* `Caller` and `Writer` say where a thread stands.
* `Machine.step` is one step of one thread, or a change that comes from elsewhere: the host gives the
  holder another model, or somebody else changes the slot.
* `Machine.start` is a cache that has just been opened.

A thread that waits for something that has not come about has no step; whoever waits for the signal
goes on sleeping until it is worth while.  As on the signal, times have no bound: a wait that is too long for
the clock, which would break off with a panic, is left out.
-/

/-- What a caller asks of a cache. -/
inductive Call
  | load
  | save
  | invalidate
  | schedule
  | waitIdle (timeout : Nat)
  | shutdown
  | stats
  deriving DecidableEq, Repr

/-- What a caller is told. -/
inductive Answer (M : Type)
  | loaded (model : Option M)
  | saved (result : Except CacheError (Option SaveReport))
  | invalidated (result : Except CacheError Unit)
  | scheduled (o : Flush.Outcome)
  | idle (b : Bool)
  | stopped
  | stats (s : Stats)

/-- Where a caller stands. -/
inductive Caller (M : Type)
  | /-- Outside, with the answer to its last call. -/ outside (last : Option (Answer M))
  | loading (p : Load M)
  | saving (p : Save M)
  | invalidating (p : Invalidation)
  | /-- About to count a request. -/ requesting
  | /-- About to read the clock for it. -/ timing
  | /-- About to take the lock of the signal, for a request of the given time. -/ marking (reading : Nat)
  | /-- About to count a request that has joined another one. -/ merging
  | /-- About to read the clock for a wait. -/ awaiting (timeout : Nat)
  | /-- Waits for the signal to be idle. -/ checking (deadline : Nat)
  | /-- About to take the handle of the writer. -/ taking
  | /-- About to close the signal. -/ closing
  | /-- Waits for the writer to stop. -/ joining
  | /-- About to read the counters. -/ counting

/-- Where the writer stands. -/
inductive Writer (M : Type)
  | /-- Waits for something to do. -/ ready
  | /-- Makes a save that it decided on. -/ saving (d : Flush.Decision) (p : Save M)
  | /-- About to report the failure of a save. -/ complaining (d : Flush.Decision) (e : CacheError)
  | /-- About to tell the signal that it is done. -/ finishing (d : Flush.Decision)
  | stopped

namespace Caller

variable {M : Type}

/-- The start of a call. -/
def start : Call → Caller M
  | .load => .loading .peek
  | .save => .saving .enter
  | .invalidate => .invalidating .cancel
  | .schedule => .requesting
  | .waitIdle timeout => .awaiting timeout
  | .shutdown => .taking
  | .stats => .counting

/-- The end of a call. -/
def done (a : Answer M) : Caller M := .outside (some a)

/-- What a caller was told last, if it is outside. -/
def answer? : Caller M → Option (Answer M)
  | .outside last => last
  | _ => none

end Caller

namespace Writer

variable {M : Type}

/-- The writer has decided something: it makes a save unless it is to stop without one. -/
def decided (flushOnShutdown : Bool) : Flush.Decision → Writer M
  | .flush => .saving .flush .enter
  | .shutdown pending =>
    if pending && flushOnShutdown then .saving (.shutdown pending) .enter
    else .finishing (.shutdown pending)

/-- The writer is done with a decision. -/
def after : Flush.Decision → Writer M
  | .flush => .ready
  | .shutdown _ => .stopped

/-- Whether the writer has stopped. -/
def hasStopped : Writer M → Bool
  | .stopped => true
  | _ => false

end Writer

/-- A cache with its threads. -/
structure Machine (σ M : Type) where
  shared : Shared σ M
  writer : Writer M := .ready
  callers : ThreadId → Caller M := fun _ => .outside none

namespace Machine

variable {σ M : Type}

/-- One step. -/
inductive Label (σ M : Type)
  | /-- A caller that is outside makes a call. -/ call (i : ThreadId) (c : Call)
  | /-- A caller goes on. -/ caller (i : ThreadId) (o : Outside)
  | /-- The writer goes on. -/ writer (o : Outside)
  | /-- The host changes the holder. -/ host (h : Holder M)
  | /-- Somebody else changes the slot. -/ stranger (slot : σ)

/-- A cache that has just been opened. -/
def start (slot : σ) (holder : Holder M) (reports : Reports) : Machine σ M where
  shared := { slot, holder, reports }

/-- A caller goes on to another place, with a change of what is shared. -/
def move (m : Machine σ M) (i : ThreadId) (c : Caller M) (s : Shared σ M) : Machine σ M :=
  { m with callers := goTo m.callers i c, shared := s }

/-- The step of a caller. -/
def stepCaller (c : Setup σ M) (i : ThreadId) (o : Outside) (m : Machine σ M) :
    Option (Machine σ M) :=
  let s := m.shared
  match m.callers i with
  | .outside _ => none
  | .loading (.done result) => some (m.move i (.done (.loaded result)) s)
  | .loading p => (p.step c (.caller i) o s).map fun (p, s) => m.move i (.loading p) s
  | .saving (.done result) =>
    some (m.move i (.done (.saved result)) (match result with
      | .ok _ => s
      | .error _ => { s with stats := s.stats.saveFailed }))
  | .saving p => (p.step c (.caller i) o s).map fun (p, s) => m.move i (.saving p) s
  | .invalidating (.done result) => some (m.move i (.done (.invalidated result)) s)
  | .invalidating p => (p.step c (.caller i) o s).map fun (p, s) => m.move i (.invalidating p) s
  | .requesting => some (m.move i .timing { s with stats := s.stats.requested })
  | .timing => some (m.move i (.marking o.now) s)
  | .marking reading =>
    let (outcome, signal) := s.signal.request reading
    some (m.move i (if outcome = .coalesced then .merging else .done (.scheduled outcome))
      { s with signal })
  | .merging => some (m.move i (.done (.scheduled .coalesced)) { s with stats := s.stats.coalesced })
  | .awaiting timeout => some (m.move i (.checking (o.now + timeout)) s)
  | .checking deadline =>
    if s.signal.isIdle then some (m.move i (.done (.idle true)) s)
    else if deadline ≤ o.now then some (m.move i (.done (.idle false)) s)
    else none
  | .taking =>
    some (m.move i (if s.hasHandle then .closing else .done .stopped) { s with hasHandle := false })
  | .closing => some (m.move i .joining { s with signal := s.signal.close })
  | .joining => if m.writer.hasStopped then some (m.move i (.done .stopped) s) else none
  | .counting => some (m.move i (.done (.stats s.stats)) s)

/-- The step of the writer. -/
def stepWriter (c : Setup σ M) (o : Outside) (m : Machine σ M) : Option (Machine σ M) :=
  let s := m.shared
  match m.writer with
  | .ready =>
    (s.signal.decide? c.timing o.now).map fun (d, signal) =>
      { m with writer := .decided c.flushOnShutdown d, shared := { s with signal } }
  | .saving d (.done (.ok _)) => some { m with writer := .finishing d }
  | .saving d (.done (.error e)) => some { m with writer := .complaining d e }
  | .saving d p =>
    (p.step c .writer o s).map fun (p, s) => { m with writer := .saving d p, shared := s }
  | .complaining d e =>
    some { m with
      writer := .finishing d
      shared := { s with
        stats := s.stats.saveFailed
        reports := s.reports.add c.sink (.ofSaveError c.slot.location e) } }
  | .finishing d =>
    some { m with writer := .after d, shared := { s with signal := s.signal.finish } }
  | .stopped => none

/-- One step of one thread, or a change from elsewhere. -/
def step (c : Setup σ M) : Label σ M → Machine σ M → Option (Machine σ M)
  | .call i call, m =>
    match m.callers i with
    | .outside _ => some (m.move i (.start call) m.shared)
    | _ => none
  | .caller i o, m => m.stepCaller c i o
  | .writer o, m => m.stepWriter c o
  | .host h, m => some { m with shared := { m.shared with holder := h } }
  | .stranger slot, m => some { m with shared := { m.shared with slot } }

end Machine

end SnapStore.Cache
