import SnapStore.Slot

namespace SnapStore

/-!
# What a slot promises

A cache asks little of its slot: it keeps the blob that was written last, and an access that fails
changes nothing.

* `Slot.Lawful` — a slot keeps these promises, given what it holds in each of its states.
* `MemorySlot.lawful` — a slot in memory does.
-/

/-- A slot keeps what was written last; an access that fails leaves it alone. -/
structure Slot.Lawful {σ : Type} (slot : Slot σ) (content : σ → Option Bytes) : Prop where
  read : ∀ {s b}, slot.read s = .ok b → b = content s
  write_ok : ∀ {b s s'}, slot.write b s = (.ok (), s') → content s' = some b
  write_error : ∀ {b s e s'}, slot.write b s = (.error e, s') → content s' = content s
  remove_ok : ∀ {s r s'}, slot.remove s = (.ok r, s') → content s' = none
  remove_error : ∀ {s e s'}, slot.remove s = (.error e, s') → content s' = content s

theorem MemorySlot.lawful (location : String) : (slot location).Lawful blob where
  read h := by cases h; rfl
  write_ok h := by
    simp only [slot] at h
    split at h <;> cases h
    rfl
  write_error h := by
    simp only [slot] at h
    split at h <;> cases h
    rfl
  remove_ok h := by cases h; rfl
  remove_error h := by cases h

end SnapStore
