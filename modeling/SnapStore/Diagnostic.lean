import SnapStore.Error

namespace SnapStore

/-!
# Diagnostics

A cache goes on without a snapshot that it cannot read and keeps the old one when it cannot write.
What went wrong is then not an error of a call but a diagnostic.

* `Diagnostic.ofLoadError` and `Diagnostic.ofSaveError` classify an error.
* `Diagnostic.log` is the log entry of a diagnostic; `Sink` says where diagnostics go, and whatever
  the sink is, they are logged.
-/

/-- How serious a log entry or a diagnostic is. -/
inductive Severity
  | warning | error
  deriving DecidableEq, Repr

/-- An entry of the log. -/
structure LogEntry where
  severity : Severity
  message : String
  deriving DecidableEq, Repr

/-- What a diagnostic is about. -/
inductive Trouble
  | /-- The stored snapshot could not be read. -/ readFailed
  | /-- The stored snapshot could not be decoded. -/ corrupted
  | /-- The stored snapshot has another format or model version. -/ versionMismatch
  | /-- A save failed, and the former snapshot is still there. -/ writeFailed
  deriving DecidableEq, Repr

/-- The wording of a trouble. -/
def Trouble.describe : Trouble → String
  | .readFailed => "read failed"
  | .corrupted => "corrupted"
  | .versionMismatch => "version mismatch"
  | .writeFailed => "write failed"

/-- Only a failed write is serious: all other troubles cost no more than a load. -/
def Trouble.severity : Trouble → Severity
  | .writeFailed => .error
  | _ => .warning

/-- The trouble that an error means when it arises in a load. -/
def Trouble.ofLoadError : CacheError → Trouble
  | .corrupted _ => .corrupted
  | .serialization _ => .corrupted
  | .versionMismatch _ => .versionMismatch
  | _ => .readFailed

/-- A trouble, the slot that it is about, and its reason. -/
structure Diagnostic where
  trouble : Trouble
  location : String
  reason : String
  deriving DecidableEq, Repr

namespace Diagnostic

/-- The diagnostic of an error in a load. -/
def ofLoadError (location : String) (e : CacheError) : Diagnostic :=
  ⟨.ofLoadError e, location, e.message⟩

/-- The diagnostic of an error in a save. -/
def ofSaveError (location : String) (e : CacheError) : Diagnostic := ⟨.writeFailed, location, e.message⟩

/-- The wording of a diagnostic. -/
def message (d : Diagnostic) : String :=
  "model cache " ++ d.trouble.describe ++ " at " ++ d.location ++ ": " ++ d.reason

/-- The log entry of a diagnostic. -/
def log (d : Diagnostic) : LogEntry := ⟨d.trouble.severity, d.message⟩

end Diagnostic

/-- Where diagnostics go. -/
inductive Sink
  | /-- To the log only. -/ logging
  | /-- To the log and into a list, in order of arrival. -/ recording
  deriving DecidableEq, Repr

/-- What has been reported: the log, and the list of a recording sink. -/
structure Reports where
  log : List LogEntry := []
  recorded : List Diagnostic := []
  deriving Repr

/-- Reports a diagnostic. -/
def Reports.add (r : Reports) (sink : Sink) (d : Diagnostic) : Reports where
  log := r.log ++ [d.log]
  recorded := if sink = .recording then r.recorded ++ [d] else r.recorded

end SnapStore
