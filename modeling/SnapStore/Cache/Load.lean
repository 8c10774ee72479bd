import SnapStore.Cache.Setup

namespace SnapStore.Cache

/-!
# Loads

A load returns the snapshot in memory if there is one.  Otherwise it reads the slot, with the load
lane in hand, so that a blob is read and decoded by one load at a time.  Other threads can save while
it does so; what they saved is newer than what it decoded, and stays.

* `Load` says where a load stands, `Load.step` is its next step.
-/

/-- Where a load stands. -/
inductive Load (M : Type)
  | /-- About to look for the snapshot in memory. -/ peek
  | /-- About to take the load lane. -/ enter
  | /-- About to look again, with the lane in hand. -/ recheck
  | /-- About to ask whether the blob is known to be bad. -/ consult
  | /-- About to read the slot. -/ fetch
  | /-- The slot has been read. -/ receive (found : Except CacheError (Option Bytes))
  | /-- About to remember that the blob is bad, unless the error may pass. -/ fail (e : CacheError)
  | /-- About to report the error. -/ complain (e : CacheError)
  | /-- About to take the write lane for a decoded snapshot. -/ install (h : Snapshot.Header) (model : M)
  | /-- About to put the snapshot into memory. -/ publish (h : Snapshot.Header) (model : M)
  | /-- About to release the load lane. -/ leave (result : Option M)
  | done (result : Option M)

/-- The next step of a load; there is none while it waits for a lane. -/
def Load.step {σ M : Type} (c : Setup σ M) (me : Actor) (o : Outside) (s : Shared σ M) :
    Load M → Option (Load M × Shared σ M)
  | .peek =>
    match s.current with
    | some model => some (.done (some model), { s with stats := s.stats.hit })
    | none => some (.enter, s)
  | .enter => if s.loadLane.isNone then some (.recheck, { s with loadLane := some me }) else none
  | .recheck =>
    match s.current with
    | some model => some (.leave (some model), { s with stats := s.stats.hit })
    | none => some (.consult, s)
  | .consult => some (if s.knownBad then .leave none else .fetch, s)
  | .fetch => some (.receive (c.slot.read s.slot), s)
  | .receive found =>
    match o.outcome found with
    | .error e => some (.fail e, s)
    | .ok none => some (.leave none, s)
    | .ok (some blob) =>
      match Snapshot.decode c.codec c.modelVersion blob with
      | .ok (h, model) => some (.install h model, { s with stats := s.stats.loaded })
      | .error e => some (.fail e, s)
  | .fail e => some (.complain e, if e.isIo then s else { s with knownBad := true })
  | .complain e =>
    some (.leave none, { s with
      stats := s.stats.loadFailed
      reports := s.reports.add c.sink (.ofLoadError c.slot.location e) })
  | .install h model =>
    if s.writeLane.isNone then some (.publish h model, { s with writeLane := some me }) else none
  | .publish h model =>
    let snapshot := s.current.getD model
    some (.leave (some snapshot), { s with
      generation := max s.generation h.generation
      seeded := true
      current := some snapshot
      writeLane := none })
  | .leave result => some (.done result, { s with loadLane := none })
  | .done _ => none

end SnapStore.Cache
