import SnapStore.Calendar
import SnapStore.Config.File
import SnapStore.Inspect.Arguments
import SnapStore.Json.Document
import SnapStore.Slot.File
import SnapStore.Snapshot

namespace SnapStore.Inspect

/-!
# Reports on a cache file

* `Report` is what can be said about a cache file, `Report.document` its form as a document.
* `resolve` is the file that a request is about: the one that it names, or else the one of the
  configuration, with the environment taken into account.
* `report` reports on that file, or removes it and reports that.
-/

open Json (Document)

/-- What can be said about a cache file. -/
inductive Report
  | present (path : Path) (size : Nat) (h : Snapshot.Header)
  | absent (path : Path)
  | /-- The file has been removed, if it was there. -/ invalidated (path : Path) (removed : Bool)
  deriving DecidableEq, Repr

/-- When a snapshot was saved, as a text, if the calendar reaches that far. -/
def savedAtText? (h : Snapshot.Header) : Option String :=
  (Moment.ofUnix? h.savedAt.toNat).map Moment.rfc3339

/-- A header as a part of a report. -/
def headerDocument (h : Snapshot.Header) : Document :=
  .object [("format_version", .number h.formatVersion.toNat),
    ("model_version", .number h.modelVersion.toNat), ("generation", .number h.generation.toNat),
    ("saved_at", .number h.savedAt.toNat),
    ("saved_at_rfc3339", match savedAtText? h with
      | some s => .text s
      | none => .null)]

/-- The file that a report is about. -/
def Report.path : Report → Path
  | .present path _ _ | .absent path | .invalidated path _ => path

/-- A report as a document, given the text of the path of the file. -/
def Report.document (name : String) : Report → Document
  | .present _ size h =>
    .object [("present", .bool true), ("path", .text name), ("size_bytes", .number size),
      ("header", headerDocument h)]
  | .absent _ => .object [("present", .bool false), ("path", .text name)]
  | .invalidated _ removed => .object [("path", .text name), ("removed", .bool removed)]

/-- Why there is no report. -/
inductive Failure
  | cache (e : CacheError)
  | /-- The file is there and is no cache file. -/ unreadable (path : Path) (e : CacheError)
  deriving DecidableEq, Repr

/-- The wording of a failure. -/
def Failure.message : Failure → String
  | .cache e => e.message
  | .unreadable path e => "unreadable model cache at " ++ path.display ++ ": " ++ e.message

variable {m : Type → Type} [Monad m]

/-- The configuration that a request is about. -/
def configuration (d : Disk m) (r : Request) : m (Except CacheError Config) :=
  match r.config with
  | some file => Config.load d file
  | none => pure (.ok {})

/-- The file that a request is about. -/
def resolve (d : Disk m) (env : Environment) (r : Request) : m (Except CacheError Path) := do
  match r.path with
  | some path => pure (.ok path)
  | none =>
    match ← configuration d r with
    | .error e => pure (.error e)
    | .ok c =>
      match (c.override env).1.cachePath env with
      | .ok path => pure (.ok path)
      | .error fault => pure (.error (.config fault))

/-- Removes a cache file. -/
def invalidate (d : Disk m) (path : Path) : m (Except Failure Report) := do
  match ← FileSlot.remove d path with
  | .ok removed => pure (.ok (.invalidated path removed))
  | .error e => pure (.error (.cache e))

/-- The report on the contents of a cache file. -/
def describe (path : Path) (blob : Bytes) : Except Failure Report :=
  match Snapshot.readHeader blob with
  | .ok h => .ok (.present path blob.length h)
  | .error e => .error (.unreadable path e)

/-- Does what a request asks for. -/
def report (d : Disk m) (env : Environment) (r : Request) : m (Except Failure Report) := do
  match ← resolve d env r with
  | .error e => pure (.error (.cache e))
  | .ok path =>
    if r.invalidate then invalidate d path
    else
      match ← FileSlot.read d path with
      | .error e => pure (.error (.cache e))
      | .ok none => pure (.ok (.absent path))
      | .ok (some blob) => pure (describe path blob)

end SnapStore.Inspect
