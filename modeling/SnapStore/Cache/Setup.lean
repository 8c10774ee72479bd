import SnapStore.Config
import SnapStore.Diagnostic
import SnapStore.Snapshot
import SnapStore.Stats
import SnapStore.Holder
import SnapStore.Slot.File
import SnapStore.Run
import SnapStore.Flush.Signal

namespace SnapStore.Cache

/-!
# What a cache is made of

* `Setup` is what is settled when a cache is opened: the slot, how models are written, and the
  settings.
* `Shared` is what the threads of a cache share, with two lanes: the load lane is held while a
  snapshot is read from the slot, the write lane while the slot or the snapshot in memory is changed.
  A thread that needs both takes the load lane first.
* `Outside` is what a single step learns from outside.
-/

/-- What is settled when a cache is opened. -/
structure Setup (σ M : Type) where
  slot : Slot σ
  codec : Codec M
  modelVersion : UInt32
  level : Int
  timing : Flush.Timing
  flushOnShutdown : Bool
  sink : Sink

/-- The setup of a configuration, on a given slot. -/
def Setup.onSlot {σ M : Type} (c : Config) (slot : Slot σ) (codec : Codec M) (sink : Sink) :
    Except ConfigFault (Setup σ M) := do
  c.validate
  pure {
    slot, codec, sink
    modelVersion := c.modelVersion
    level := c.compressionLevel.toInt
    timing := ⟨c.saveDelay, c.maxSaveDelay⟩
    flushOnShutdown := c.flushOnShutdown }

/-- The setup of a configuration, on the file that it names. -/
def Setup.onFile {M : Type} (c : Config) (env : Environment) (codec : Codec M) (sink : Sink) :
    Except ConfigFault (Setup FileTree M) := do
  let path ← c.cachePath env
  Setup.onSlot c (FileSlot.slot path) codec sink

/-- The same setup on a slot whose state is part of a larger one. -/
def Setup.within {σ τ M : Type} (get : τ → σ) (set : σ → τ → τ) (c : Setup σ M) :
    Setup τ M where
  slot := c.slot.within get set
  codec := c.codec
  modelVersion := c.modelVersion
  level := c.level
  timing := c.timing
  flushOnShutdown := c.flushOnShutdown
  sink := c.sink

/-- Who takes a step. -/
inductive Actor
  | writer
  | caller (i : ThreadId)
  deriving DecidableEq, Repr

/-- What the threads of a cache share. -/
structure Shared (σ M : Type) where
  slot : σ
  holder : Holder M
  reports : Reports
  /-- The snapshot last loaded or saved. -/
  current : Option M := none
  /-- Who holds the load lane. -/
  loadLane : Option Actor := none
  /-- Who holds the write lane. -/
  writeLane : Option Actor := none
  /-- The generation of the last save that is known of. -/
  generation : UInt64 := 0
  /-- Whether the generation takes the blob into account that was in the slot at first. -/
  seeded : Bool := false
  /-- Whether the blob in the slot failed to decode, so that there is no point in reading it again. -/
  knownBad : Bool := false
  signal : Flush.Signal := {}
  stats : Stats := {}
  /-- Whether the handle of the writer is still in its place: who takes it stops the writer. -/
  hasHandle : Bool := true

/-- What a single step learns from outside. -/
structure Outside where
  /-- The reading of the clock, in milliseconds. -/
  now : Nat := 0
  /-- The time of day, in seconds since 1970. -/
  unixTime : UInt64 := 0
  /-- The failure of the slot, if it fails. -/
  fault : Option CacheError := none
  /-- What the compressor fails to do and why, if it fails. -/
  compressorFault : Option (CompressorTask × String) := none
  deriving Repr

/-- What reading the slot comes to, given its failure. -/
def Outside.outcome {α : Type} (o : Outside) (r : Except CacheError α) : Except CacheError α :=
  match o.fault with
  | some e => .error e
  | none => r

/-- What changing the slot comes to, given its failure: a slot that fails does not change. -/
def Outside.change {σ α : Type} (o : Outside) (f : σ → Except CacheError α × σ) (slot : σ) :
    Except CacheError α × σ :=
  match o.fault with
  | some e => (.error e, slot)
  | none => f slot

/-- What making a blob comes to, given the failure of the compressor.  It comes up before it is found out
that a model has no binary form, except for a failure to finish. -/
def Outside.compressed (o : Outside) (r : Except CacheError Bytes) : Except CacheError Bytes :=
  match o.compressorFault, r with
  | none, r => r
  | some (.finish, _), .error e => .error e
  | some (task, text), _ => .error (.serialization (.compressor task text))

/-- What a save has written. -/
structure SaveReport where
  header : Snapshot.Header
  /-- The size of the blob. -/
  bytes : Nat
  deriving DecidableEq, Repr

end SnapStore.Cache
