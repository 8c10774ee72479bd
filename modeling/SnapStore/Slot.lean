import SnapStore.Error

namespace SnapStore

/-!
# Slots

A slot keeps one blob, or none.  Replacing the blob is all or nothing: a failed write leaves what was
there.

* `Slot σ` is a slot that is kept in a state of the type `σ`.
* `Slot.within` is the same slot when its state is part of a larger one.
* `MemorySlot` is one that is kept in memory, which can be told to refuse writes.
-/

/-- A slot that is kept in a state. -/
structure Slot (σ : Type) where
  /-- The blob, if there is one. -/
  read : σ → Except CacheError (Option Bytes)
  /-- Replaces the blob. -/
  write : Bytes → σ → Except CacheError Unit × σ
  /-- Removes the blob and tells whether there was one. -/
  remove : σ → Except CacheError Bool × σ
  /-- What messages call the slot. -/
  location : String

/-- A slot whose state is part of a larger one. -/
def Slot.within {σ τ : Type} (get : τ → σ) (set : σ → τ → τ) (slot : Slot σ) : Slot τ where
  read t := slot.read (get t)
  write b t :=
    let (r, s) := slot.write b (get t)
    (r, set s t)
  remove t :=
    let (r, s) := slot.remove (get t)
    (r, set s t)
  location := slot.location

/-- A slot in memory. -/
structure MemorySlot where
  blob : Option Bytes := none
  /-- The number of writes that succeeded. -/
  writes : Nat := 0
  /-- Whether writes are refused. -/
  failWrites : Bool := false
  deriving Repr

namespace MemorySlot

/-- The failure of a refused write. -/
def refusal : CacheError := .io (.custom .other "simulated write failure")

/-- The operations of a slot in memory. -/
def slot (location : String) : Slot MemorySlot where
  read s := .ok s.blob
  write b s :=
    if s.failWrites then (.error refusal, s)
    else (.ok (), { s with blob := some b, writes := s.writes + 1 })
  remove s := (.ok s.blob.isSome, { s with blob := none })
  location

end MemorySlot

end SnapStore
