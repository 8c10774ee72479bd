import SnapStore.Snapshot
import SnapStore.Diagnostic
import SnapStore.Stats
import SnapStore.Holder
import SnapStore.Registry
import SnapStore.Slot.File
import SnapStore.Config.File
import SnapStore.Flush.Script
import SnapStore.Cache.Script
import SnapStore.Holder.Machine
import SnapStore.Main
import SnapStore.Proofs.Model.Order
import SnapStore.Proofs.Model.Primitives
import SnapStore.Proofs.Model.RoundTrip
import SnapStore.Proofs.Model.Sized
import SnapStore.Proofs.Model.Size
import SnapStore.Proofs.Model.Spelling
import SnapStore.Proofs.Model.Turns
import SnapStore.Proofs.Model.Rest
import SnapStore.Proofs.Zstandard.Extent
import SnapStore.Proofs.Zstandard.Reach
import SnapStore.Proofs.Zstandard.Concatenation
import SnapStore.Proofs.Snapshot.RoundTrip
import SnapStore.Proofs.Snapshot.Outcomes
import SnapStore.Proofs.Snapshot.Truncation
import SnapStore.Proofs.Snapshot.Canonical
import SnapStore.Proofs.Snapshot.Concatenation
import SnapStore.Proofs.Flush.Ledger
import SnapStore.Proofs.Flush.Watch
import SnapStore.Proofs.Flush.Idle
import SnapStore.Proofs.Cache.Agreement
import SnapStore.Proofs.Cache.Reopening
import SnapStore.Proofs.Cache.Invalidation
import SnapStore.Proofs.Cache.Count
import SnapStore.Proofs.Cache.Generations
import SnapStore.Proofs.Cache.Barrier
import SnapStore.Proofs.Cache.FirstSave
import SnapStore.Proofs.Flush.Conservation
import SnapStore.Proofs.Cache.Removal
import SnapStore.Proofs.Cache.Decoding
import SnapStore.Proofs.Cache.Freshness
import SnapStore.Proofs.Cache.FailedInvalidation
import SnapStore.Proofs.Cache.Deadlock
import SnapStore.Proofs.Slot.Refinement
import SnapStore.Proofs.Json.Written
import SnapStore.Proofs.Config.Written
import SnapStore.Proofs.Inspect.Agreement
import SnapStore.Proofs.Flush.Burst
import SnapStore.Proofs.Flush.Retirement
import SnapStore.Proofs.Cache.FailedSave
import SnapStore.Proofs.Cache.Retry
import SnapStore.Proofs.Cache.Accounts
import SnapStore.Proofs.Holder.Updates
import SnapStore.Proofs.Config.Location
import SnapStore.Proofs.Calendar
import SnapStore.Proofs.Calendar.Written
import SnapStore.Proofs.Inspect.SavedAt
import SnapStore.Proofs.Registry
