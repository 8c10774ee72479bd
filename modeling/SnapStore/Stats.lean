namespace SnapStore

/-!
# Counters

What a cache has done so far.

* `Stats` are the counters, with one bump for each event.
* `presence` reads zero as "never".
-/

/-- The counters of a cache. -/
structure Stats where
  /-- Loads that found the snapshot in memory. -/
  memoryHits : Nat := 0
  /-- Loads that decoded the snapshot in storage. -/
  storageLoads : Nat := 0
  /-- Loads that could not read or decode it. -/
  loadFailures : Nat := 0
  /-- Requests for a background save. -/
  savesRequested : Nat := 0
  /-- Requests that joined one that was already pending. -/
  savesCoalesced : Nat := 0
  /-- Saves that replaced the snapshot in storage. -/
  savesCompleted : Nat := 0
  /-- Saves that failed. -/
  saveFailures : Nat := 0
  /-- When the last of them was made, in seconds since 1970, or zero. -/
  lastSavedAt : Nat := 0
  /-- How many bytes it wrote, or zero. -/
  lastSaveBytes : Nat := 0
  deriving DecidableEq, Repr

/-- A number that is absent when it is zero. -/
def presence (n : Nat) : Option Nat := if n = 0 then none else some n

namespace Stats

def hit (s : Stats) : Stats := { s with memoryHits := s.memoryHits + 1 }

def loaded (s : Stats) : Stats := { s with storageLoads := s.storageLoads + 1 }

def loadFailed (s : Stats) : Stats := { s with loadFailures := s.loadFailures + 1 }

def requested (s : Stats) : Stats := { s with savesRequested := s.savesRequested + 1 }

def coalesced (s : Stats) : Stats := { s with savesCoalesced := s.savesCoalesced + 1 }

def saveFailed (s : Stats) : Stats := { s with saveFailures := s.saveFailures + 1 }

/-- A save was completed at the given time and wrote so many bytes. -/
def saved (s : Stats) (at_ bytes : Nat) : Stats :=
  { s with savesCompleted := s.savesCompleted + 1, lastSavedAt := at_, lastSaveBytes := bytes }

/-- The wording of a number that may be absent. -/
def presenceText (n : Nat) : String :=
  match presence n with
  | none => "None"
  | some n => "Some(" ++ toString n ++ ")"

/-- All counters, by name. -/
def describe (s : Stats) : String :=
  "CacheStatsSnapshot \x7b " ++ ", ".intercalate
    ["memory_hits: " ++ toString s.memoryHits, "storage_loads: " ++ toString s.storageLoads,
      "load_failures: " ++ toString s.loadFailures, "saves_requested: " ++ toString s.savesRequested,
      "saves_coalesced: " ++ toString s.savesCoalesced,
      "saves_completed: " ++ toString s.savesCompleted, "save_failures: " ++ toString s.saveFailures,
      "last_saved_at: " ++ presenceText s.lastSavedAt,
      "last_save_bytes: " ++ presenceText s.lastSaveBytes] ++ " \x7d"

end Stats

end SnapStore
