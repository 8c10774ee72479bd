import SnapStore.Bytes
import SnapStore.Zstandard.Fault

namespace SnapStore.Zstandard

/-!
# Sources

A decoder gets its input in chunks.  Where a chunk ends cannot be told from the bytes, but it can be
told from what the decoder does: it takes a frame as a whole if it sees all of it, and passes on a part
of a block that is stored as it is as soon as it sees that part.

* `Source` are the bytes that are still to come.
* `Source.take` takes bytes off the front, `Source.takeInSight` as many of them as there are in sight, and
  `Source.takeBuffered` puts them together in a buffer.
-/

/-- The bytes that are still to come. -/
structure Source where
  rest : Bytes
  /-- The number of bytes before them. -/
  taken : Nat := 0

namespace Source

/-- The size of a chunk. -/
def chunk : Nat := 131075

/-- The number of bytes up to the end of the chunk that the next byte is in. -/
def sight (s : Source) : Nat := chunk - s.taken % chunk

theorem sight_pos (s : Source) : 0 < s.sight := by
  simp only [sight, chunk]
  omega

/-- Takes exactly `n` bytes. -/
def take (n : Nat) (s : Source) : Except Fault (Bytes × Source) :=
  match Bytes.split? n s.rest with
  | some (front, rest) => .ok (front, ⟨rest, s.taken + n⟩)
  | none => .error .incomplete

/-- Takes `n` bytes, or those of them that are in sight. -/
def takeInSight (n : Nat) (s : Source) : Bytes × Source :=
  let n := min n s.sight
  let (front, rest) := s.rest.splitAt n
  (front, ⟨rest, s.taken + n⟩)

/-- Takes exactly `n` bytes.  If they are not in sight as a whole, they are put together in a buffer, which
must be large enough. -/
def takeBuffered (size n : Nat) (s : Source) : Except Fault (Bytes × Source) :=
  let inSight := (s.rest.take (min n s.sight)).length
  if 0 < inSight ∧ inSight < n ∧ size < n then .error .corrupted else s.take n

theorem take_length {n : Nat} {s after : Source} {front : Bytes} (h : s.take n = .ok (front, after)) :
    after.rest.length + n = s.rest.length := by
  unfold take at h
  split at h
  · rename_i front rest hs
    cases h
    obtain ⟨hb, rfl⟩ := Bytes.eq_append_of_split? hs
    simp [hb, Nat.add_comm]
  · cases h

theorem takeInSight_length (n : Nat) (s : Source) :
    (s.takeInSight n).2.rest.length + (s.takeInSight n).1.length = s.rest.length := by
  simp only [takeInSight, List.splitAt_eq, List.length_take, List.length_drop]
  omega

theorem takeBuffered_length {size n : Nat} {s after : Source} {front : Bytes}
    (h : s.takeBuffered size n = .ok (front, after)) : after.rest.length + n = s.rest.length := by
  simp only [takeBuffered] at h
  split at h
  · cases h
  · exact take_length h

end Source

end SnapStore.Zstandard
