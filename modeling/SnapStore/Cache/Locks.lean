import SnapStore.Cache.Machine

namespace SnapStore.Cache

/-!
# The locks of a cache

Apart from its two lanes, a cache has three locks that a thread has in hand for one step: the lock of the
snapshot in memory, the lock of the signal, and the lock of the place where the handle of the writer is.
`Machine.step` takes such a step at once.  Here it is taken apart: a thread waits until it has the lock
in hand, takes its step, and releases the lock.

* `Need` is what stands between a thread and its next step.
* `Keepers` says who has a lock in hand, `Grip` what a thread has in hand.
* `Locked.step` is one step of one thread, seen from nearby.

A thread that waits for the signal sleeps without the lock, and may be woken at any time; it looks again
then.  A lock is given to anybody who can have it: a lock that is particular about whose turn it is allows
fewer runs.  A thread that releases both lanes does so in one step, since it waits for nothing in between.
-/

/-- A lock that a thread has in hand for one step. -/
inductive Latch
  | /-- Guards the snapshot in memory. -/ current
  | /-- Guards the signal. -/ signal
  | /-- Guards the place of the handle of the writer. -/ handle
  deriving DecidableEq, Repr

/-- The locks of a cache. -/
inductive Lock
  | loadLane
  | writeLane
  | latch (k : Latch)
  deriving DecidableEq, Repr

/-- What stands between a thread and its next step. -/
inductive Need
  | nothing
  | /-- It takes the load lane. -/ loadLane
  | /-- It takes the write lane. -/ writeLane
  | /-- It needs a lock for it; others can have it as well unless it needs it alone. -/
    latch (k : Latch) (alone : Bool)
  | /-- It waits for the end of the writer. -/ stop
  deriving DecidableEq, Repr

section Needs

variable {M : Type}

/-- What a load needs for its next step. -/
def Load.need : Load M → Need
  | .peek | .recheck => .latch .current false
  | .enter => .loadLane
  | .install .. => .writeLane
  | .publish .. => .latch .current true
  | _ => .nothing

/-- What a save needs for its next step. -/
def Save.need : Save M → Need
  | .enter => .writeLane
  | .publish .. => .latch .current true
  | _ => .nothing

/-- What an invalidation needs for its next step. -/
def Invalidation.need : Invalidation → Need
  | .cancel => .latch .signal true
  | .enterLoad => .loadLane
  | .enterWrite => .writeLane
  | .forget => .latch .current true
  | _ => .nothing

/-- What a caller needs for its next step. -/
def Caller.need : Caller M → Need
  | .loading p => p.need
  | .saving p => p.need
  | .invalidating p => p.need
  | .marking _ | .checking _ | .closing => .latch .signal true
  | .taking => .latch .handle true
  | .joining => .stop
  | _ => .nothing

/-- What the writer needs for its next step. -/
def Writer.need : Writer M → Need
  | .ready | .finishing _ => .latch .signal true
  | .saving _ p => p.need
  | _ => .nothing

end Needs

/-- Who has a lock in hand: one thread alone, or any number of threads that only read. -/
structure Keepers where
  owner : Option Actor := none
  readers : List Actor := []
  deriving Repr

namespace Keepers

/-- A thread takes a lock, if it can have it. -/
def take? (me : Actor) (alone : Bool) (ks : Keepers) : Option Keepers :=
  match alone with
  | true => if ks.owner.isNone && ks.readers.isEmpty then some { ks with owner := some me } else none
  | false => if ks.owner.isNone then some { ks with readers := me :: ks.readers } else none

/-- A thread that has taken a lock releases it. -/
def release (me : Actor) (alone : Bool) (ks : Keepers) : Keepers :=
  match alone with
  | true => { ks with owner := none }
  | false => { ks with readers := ks.readers.filter (· ≠ me) }

/-- Whether a thread has a lock in hand, alone or with others. -/
def Has (ks : Keepers) (a : Actor) (alone : Bool) : Prop :=
  match alone with
  | true => ks.owner = some a
  | false => a ∈ ks.readers

end Keepers

/-- What a thread has in hand for its next step, or for the last one. -/
inductive Grip
  | nothing
  | /-- It has a lock in hand, and its step is to come. -/ taken (k : Latch) (alone : Bool)
  | /-- It still has a lock in hand, and its step is done. -/ spent (k : Latch) (alone : Bool)
  | /-- It sleeps until it is woken. -/ asleep
  deriving DecidableEq, Repr

/-- A cache with its threads and its locks. -/
structure Locked (σ M : Type) where
  machine : Machine σ M
  grip : Actor → Grip := fun _ => .nothing
  keepers : Latch → Keepers := fun _ => {}

namespace Machine

variable {σ M : Type}

/-- The next step of a thread. -/
def advance (c : Setup σ M) (m : Machine σ M) (me : Actor) (o : Outside) : Option (Machine σ M) :=
  match me with
  | .writer => m.stepWriter c o
  | .caller i => m.stepCaller c i o

/-- What a thread needs for its next step. -/
def need (m : Machine σ M) : Actor → Need
  | .writer => m.writer.need
  | .caller i => (m.callers i).need

end Machine

namespace Locked

variable {σ M : Type}

/-- A cache in which nobody has a lock in hand. -/
def of (m : Machine σ M) : Locked σ M := { machine := m }

/-- One step, seen from nearby. -/
inductive Label (σ M : Type)
  | /-- A caller that is outside makes a call. -/ call (i : ThreadId) (c : Call)
  | /-- A thread takes a lock, takes a step, or releases a lock. -/ turn (me : Actor) (o : Outside)
  | /-- A thread that sleeps wakes up. -/ wake (me : Actor)
  | /-- The host changes the holder. -/ host (h : Holder M)
  | /-- Somebody else changes the slot. -/ stranger (slot : σ)

/-- The machine goes on, and nobody takes or releases a lock. -/
def withMachine (g : Locked σ M) (m : Machine σ M) : Locked σ M := { g with machine := m }

/-- The keepers of a lock and the grip of a thread change. -/
def regrip (g : Locked σ M) (me : Actor) (grip : Grip) (k : Latch) (ks : Keepers) : Locked σ M :=
  { g with
    grip := fun a => if a = me then grip else g.grip a
    keepers := fun k' => if k' = k then ks else g.keepers k' }

@[simp] theorem machine_regrip (g : Locked σ M) (me : Actor) (grip : Grip) (k : Latch) (ks : Keepers) :
    (g.regrip me grip k ks).machine = g.machine := rfl

@[simp] theorem grip_regrip (g : Locked σ M) (me : Actor) (grip : Grip) (k : Latch) (ks : Keepers) :
    (g.regrip me grip k ks).grip me = grip := by simp [regrip]

@[simp] theorem keepers_regrip (g : Locked σ M) (me : Actor) (grip : Grip) (k : Latch) (ks : Keepers) :
    (g.regrip me grip k ks).keepers k = ks := by simp [regrip]

@[simp] theorem machine_withMachine (g : Locked σ M) (m : Machine σ M) : (g.withMachine m).machine = m := rfl

@[simp] theorem grip_withMachine (g : Locked σ M) (m : Machine σ M) : (g.withMachine m).grip = g.grip := rfl

@[simp] theorem keepers_withMachine (g : Locked σ M) (m : Machine σ M) :
    (g.withMachine m).keepers = g.keepers := rfl

/-- A thread goes on. -/
def turn (c : Setup σ M) (g : Locked σ M) (me : Actor) (o : Outside) : Option (Locked σ M) :=
  match g.grip me with
  | .nothing =>
    match g.machine.need me with
    | .latch k alone =>
      ((g.keepers k).take? me alone).map fun ks => g.regrip me (.taken k alone) k ks
    | _ => (g.machine.advance c me o).map g.withMachine
  | .taken k alone =>
    match g.machine.advance c me o with
    | some m => some ((g.regrip me (.spent k alone) k (g.keepers k)).withMachine m)
    -- it is not worth while yet
    | none => some (g.regrip me .asleep k ((g.keepers k).release me alone))
  | .spent k alone => some (g.regrip me .nothing k ((g.keepers k).release me alone))
  | .asleep => none

/-- One step of one thread, or a change from elsewhere. -/
def step (c : Setup σ M) : Label σ M → Locked σ M → Option (Locked σ M)
  | .call i call, g =>
    if g.grip (.caller i) = .nothing then
      (g.machine.step c (.call i call)).map g.withMachine
    else none
  | .turn me o, g => g.turn c me o
  | .wake me, g =>
    if g.grip me = .asleep then
      some { g with grip := fun a => if a = me then .nothing else g.grip a }
    else none
  | .host h, g => (g.machine.step c (.host h)).map g.withMachine
  | .stranger slot, g => (g.machine.step c (.stranger slot)).map g.withMachine

end Locked

end SnapStore.Cache
