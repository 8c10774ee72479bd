import SnapStore.Cache.Setup

namespace SnapStore.Cache

/-!
# Invalidation

Invalidating a cache drops the pending save and then, with both lanes in hand, the blob in the slot
and the snapshot in memory.  If the blob cannot be removed, the snapshot stays as well.

* `Invalidation` says where a call stands, `Invalidation.step` is its next step.
-/

/-- Where an invalidation stands. -/
inductive Invalidation
  | /-- About to drop the pending save. -/ cancel
  | /-- About to take the load lane. -/ enterLoad
  | /-- About to take the write lane. -/ enterWrite
  | /-- About to remove the blob. -/ remove
  | /-- About to forget the snapshot in memory. -/ forget
  | /-- About to forget that the blob was bad. -/ absolve
  | /-- About to release the lanes. -/ leave (result : Except CacheError Unit)
  | done (result : Except CacheError Unit)

/-- The next step of an invalidation; there is none while it waits for a lane. -/
def Invalidation.step {σ M : Type} (c : Setup σ M) (me : Actor) (o : Outside) (s : Shared σ M) :
    Invalidation → Option (Invalidation × Shared σ M)
  | .cancel => some (.enterLoad, { s with signal := s.signal.cancel.2 })
  | .enterLoad =>
    if s.loadLane.isNone then some (.enterWrite, { s with loadLane := some me }) else none
  | .enterWrite =>
    if s.writeLane.isNone then some (.remove, { s with writeLane := some me }) else none
  | .remove =>
    match o.change c.slot.remove s.slot with
    | (.ok _, slot) => some (.forget, { s with slot })
    | (.error e, slot) => some (.leave (.error e), { s with slot })
  | .forget => some (.absolve, { s with current := none })
  | .absolve => some (.leave (.ok ()), { s with knownBad := false })
  | .leave result => some (.done result, { s with writeLane := none, loadLane := none })
  | .done _ => none

end SnapStore.Cache
