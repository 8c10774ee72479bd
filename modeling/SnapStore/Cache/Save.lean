import SnapStore.Cache.Setup

namespace SnapStore.Cache

/-!
# Saves

A save writes the model of the holder, all with the write lane in hand, so that saves come one after
another.  The first save of a cache continues the generation of the blob that it finds in the slot.

* `Save` says where a save stands, `Save.step` is its next step.  The writer and callers save in the
  same way; they differ in what they do about a failure.
-/

/-- Where a save stands. -/
inductive Save (M : Type)
  | /-- About to take the write lane. -/ enter
  | /-- About to ask the holder for its model. -/ capture
  | /-- About to find out the generation of the blob in the slot, if that is not known. -/ seed (model : M)
  | /-- The slot has been read. -/ receive (model : M) (found : Except CacheError (Option Bytes))
  | /-- About to make the blob. -/ encode (model : M)
  | /-- About to put it into the slot. -/ write (model : M) (h : Snapshot.Header) (blob : Bytes)
  | /-- About to note the generation. -/ commit (model : M) (r : SaveReport)
  | /-- About to put the model into memory. -/ publish (model : M) (r : SaveReport)
  | /-- About to count the save. -/ record (r : SaveReport)
  | /-- About to release the lane. -/ leave (result : Except CacheError (Option SaveReport))
  | done (result : Except CacheError (Option SaveReport))

/-- The generation of a blob, if it is one that this library could have written. -/
def generation? (found : Except CacheError (Option Bytes)) : Option UInt64 :=
  match found with
  | .ok (some blob) =>
    match Snapshot.readHeader blob with
    | .ok h => if h.formatVersion = Snapshot.formatVersion then some h.generation else none
    | .error _ => none
  | _ => none

/-- The next step of a save; there is none while it waits for the lane. -/
def Save.step {σ M : Type} (c : Setup σ M) (me : Actor) (o : Outside) (s : Shared σ M) :
    Save M → Option (Save M × Shared σ M)
  | .enter => if s.writeLane.isNone then some (.capture, { s with writeLane := some me }) else none
  | .capture =>
    match s.holder.current with
    | some model => some (.seed model, s)
    | none => some (.leave (.ok none), s)
  | .seed model =>
    if s.seeded then some (.encode model, s)
    else some (.receive model (c.slot.read s.slot), { s with seeded := true })
  | .receive model found =>
    match generation? (o.outcome found) with
    | some g => some (.encode model, { s with generation := max s.generation g })
    | none => some (.encode model, s)
  | .encode model =>
    let h : Snapshot.Header :=
      { modelVersion := c.modelVersion, generation := s.generation + 1, savedAt := o.unixTime }
    match o.compressed (Snapshot.encode c.codec h model c.level) with
    | .ok blob => some (.write model h blob, s)
    | .error e => some (.leave (.error e), s)
  | .write model h blob =>
    match o.change (c.slot.write blob) s.slot with
    | (.ok (), slot) => some (.commit model ⟨h, blob.length⟩, { s with slot })
    | (.error e, slot) => some (.leave (.error e), { s with slot })
  | .commit model r =>
    some (.publish model r, { s with generation := r.header.generation, knownBad := false })
  | .publish model r => some (.record r, { s with current := some model })
  | .record r =>
    some (.leave (.ok (some r)), { s with stats := s.stats.saved r.header.savedAt.toNat r.bytes })
  | .leave result => some (.done result, { s with writeLane := none })
  | .done _ => none

end SnapStore.Cache
