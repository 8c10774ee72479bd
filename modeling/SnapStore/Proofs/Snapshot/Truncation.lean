import SnapStore.Proofs.Snapshot.Outcomes
import SnapStore.Proofs.Snapshot.RoundTrip
import SnapStore.Proofs.Zstandard.Extent

namespace SnapStore

/-!
# Blobs that have been cut short

A blob is one frame, and a frame says in front how far it goes.  So a blob of which bytes are missing at
the end is never taken for a blob, wherever it has been cut: in the magic number, in a header, in a block or
in the checksum.

* `Snapshot.DetectsTruncation` — whatever strict prefix of a blob is read, it is found corrupted.
* `Snapshot.takeHeader_take` — a strict prefix of a frame holds nothing.
* `Snapshot.detectsTruncation_of_isFrame` — so a blob of one frame is never read when it is cut short,
  whichever compressor it comes from.
* `Snapshot.truncated_blob_is_corrupted` — the same of what has been written of a model.
-/

namespace Snapshot

variable {M : Type} {codec : Codec M} {blob : Bytes}

/-- Whatever strict prefix of the blob is read, it is found corrupted, and for the same reason by whoever
reads it: alone for its header, or for a model with any expected version. -/
def DetectsTruncation (codec : Codec M) (blob : Bytes) : Prop :=
  ∀ n < blob.length, ∃ why, readHeader (blob.take n) = .error (.corrupted why) ∧
    ∀ expected, decode codec expected (blob.take n) = .error (.corrupted why)

/-- A strict prefix of a frame holds nothing. -/
theorem takeHeader_take (h : Zstandard.IsFrame blob) {n : Nat} (hn : n < blob.length) :
    ∃ why, takeHeader (blob.take n) = .error (.corrupted why) := by
  obtain ⟨fault, hfault⟩ := Zstandard.exists_fault_of_take h hn
  have hpayload : ∃ why, payload (blob.take n) = .error (.corrupted why) := by
    unfold payload
    split
    · exact ⟨_, rfl⟩
    · rw [hfault]
      exact ⟨_, rfl⟩
  obtain ⟨why, hwhy⟩ := hpayload
  exact ⟨why, by simp only [takeHeader, hwhy, bind, Except.bind]⟩

/-- **Blobs of one frame cannot be cut short.** It does not matter which compressor has made the frame, and
with what blocks. -/
theorem detectsTruncation_of_isFrame (codec : Codec M) (h : Zstandard.IsFrame blob) :
    DetectsTruncation codec blob := by
  intro n hn
  obtain ⟨why, hwhy⟩ := takeHeader_take h hn
  refine ⟨why, ?_, fun expected => ?_⟩
  · exact (of_takeHeader_error hwhy codec 0).1
  · exact (of_takeHeader_error hwhy codec expected).2

/-- **Every truncation is detected.** A model that has a binary form makes a blob with any header and at
every level, and no strict prefix of it is read as one or reported as a version mismatch.  It is the same
with whatever frame another compressor makes of it. -/
theorem truncated_blob_is_corrupted {m : M} (hform : ∃ body, codec.encode m = .ok body) (h : Header)
    (level : Int) :
    (∃ blob, encode codec h m level = .ok blob ∧ DetectsTruncation codec blob) ∧
      ∀ blob, Zstandard.IsFrame blob → DetectsTruncation codec blob := by
  refine ⟨?_, fun _ => detectsTruncation_of_isFrame codec⟩
  obtain ⟨body, hbody⟩ := hform
  refine ⟨_, encode_of_codec hbody h level, ?_⟩
  exact detectsTruncation_of_isFrame codec (Zstandard.isFrame_compress level _)

/-- A node of a tree is written, and no part of what is written of it is read. -/
theorem truncated_leaf_is_corrupted :
    (∃ blob, encode treeLayout.codec ⟨1, 7, 3, 1700000000⟩ (leaf "leaf" 0x7ff8000000000001) 19 = .ok blob ∧
        DetectsTruncation treeLayout.codec blob) ∧
      ∀ blob, Zstandard.IsFrame blob → DetectsTruncation treeLayout.codec blob :=
  truncated_blob_is_corrupted (treeLayout.exists_encode rfl (admits_leaf (by decide) _))
    ⟨1, 7, 3, 1700000000⟩ 19

end Snapshot

end SnapStore
