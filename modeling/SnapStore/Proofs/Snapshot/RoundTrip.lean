import SnapStore.Proofs.Model.RoundTrip
import SnapStore.Proofs.Model.Sized
import SnapStore.Proofs.Zstandard.RoundTrip
import SnapStore.Snapshot

namespace SnapStore

/-!
# Reading snapshots back

A blob holds a header and a model one after the other, with nothing in between that says where one
ends, inside one compressed frame.

* `Codec.Faithful` — what a codec writes of a model is read back, whatever follows.
* `Snapshot.Header.takes_decode` — what is written of a header is read back.
* `Snapshot.decode_encode`, `Snapshot.readHeader_encode` — so are the parts of a blob.
* `Snapshot.read_encode` — a model that can be written can be stored, and what is stored is read back.
-/

/-- What a codec writes of a valid model is taken back as that model, whatever follows. -/
def Codec.Faithful {M : Type} (codec : Codec M) (valid : M → Prop) : Prop :=
  ∀ m b, valid m → codec.encode m = .ok b → codec.decode.Takes b m

/-- The values of a model type are read back. -/
theorem Layout.faithful_codec (l : Layout) : l.codec.Faithful l.Admits :=
  fun _ _ hv hb => Layout.decode_append hv hb

namespace Snapshot

/-! ### Headers -/

/-- What is written of a header is taken back as that header, whatever follows. -/
theorem Header.takes_decode (h : Header) : Header.decode.Takes h.encode h := by
  have format := Decode.takes_varint (w := 32) h.formatVersion.toNat_lt
  have model := Decode.takes_varint (w := 32) h.modelVersion.toNat_lt
  have generation := Decode.takes_varint (w := 64) h.generation.toNat_lt
  have savedAt := Decode.takes_varint (w := 64) h.savedAt.toNat_lt
  intro rest
  simp only [Header.decode, Header.encode, List.append_assoc, format _, model _, generation _,
    savedAt _, bind, Except.bind, pure, Except.pure, UInt32.ofNat_toNat, UInt64.ofNat_toNat]

/-! ### Blobs -/

variable {M : Type} {codec : Codec M} {h : Header} {m : M} {level : Int} {blob : Bytes}

/-- A blob is written as soon as its model is. -/
theorem encode_of_codec {body : Bytes} (hbody : codec.encode m = .ok body) (h : Header) (level : Int) :
    encode codec h m level = .ok (Zstandard.compress level (h.encode ++ body)) := by
  simp only [encode, hbody]

theorem codec_of_encode (hblob : encode codec h m level = .ok blob) :
    ∃ body, codec.encode m = .ok body ∧ blob = Zstandard.compress level (h.encode ++ body) := by
  unfold encode at hblob
  split at hblob
  · rename_i body hbody
    cases hblob
    exact ⟨body, hbody, rfl⟩
  · cases hblob

theorem payload_compress (level : Int) (content : Bytes) :
    payload (Zstandard.compress level content) = .ok content := by
  have hne : (Zstandard.compress level content).isEmpty = false := by
    rw [List.isEmpty_eq_false_iff]
    exact Zstandard.compress_ne_nil level content
  simp only [payload, hne, Bool.false_eq_true, if_false, Zstandard.decompress_compress]

theorem takeHeader_compress (level : Int) (h : Header) (body : Bytes) :
    takeHeader (Zstandard.compress level (h.encode ++ body)) = .ok (h, body) := by
  simp only [takeHeader, payload_compress, h.takes_decode body, bind, Except.bind]

/-- The header of a blob is read whatever its versions are, and whatever comes after it. -/
theorem readHeader_compress (level : Int) (h : Header) (body : Bytes) :
    readHeader (Zstandard.compress level (h.encode ++ body)) = .ok h := by
  simp only [readHeader, takeHeader_compress, bind, Except.bind, pure, Except.pure]

/-- The header of a blob is read without knowing the model type, and whatever its versions are. -/
theorem readHeader_encode (hblob : encode codec h m level = .ok blob) : readHeader blob = .ok h := by
  obtain ⟨body, -, rfl⟩ := codec_of_encode hblob
  exact readHeader_compress level h body

/-- **Blobs are read back.** A blob of the current format is decoded to the header and the model that it
was made of, if its model version is the expected one. -/
theorem decode_encode {valid : M → Prop} (hcodec : codec.Faithful valid) (hm : valid m)
    (hformat : h.formatVersion = formatVersion) (hblob : encode codec h m level = .ok blob) :
    decode codec h.modelVersion blob = .ok (h, m) := by
  obtain ⟨body, hbody, rfl⟩ := codec_of_encode hblob
  have hread := hcodec m body hm hbody []
  rw [List.append_nil] at hread
  simp only [decode, takeHeader_compress, hformat, ne_eq, not_true_eq_false, if_false, hread, bind,
    Except.bind, pure, Except.pure]

/-- **Nothing is lost on the way to storage.** A value of a model type that has a binary form makes a
blob at every level.  The blob gives back the header whatever the format is, and, in the current
format, the header and the value. -/
theorem read_encode {l : Layout} {v : Value} (hv : l.Admits v) (hform : ∃ body, v.encode = .ok body)
    (h : Header) (level : Int) :
    ∃ blob, encode l.codec h v level = .ok blob ∧
      (h.formatVersion = formatVersion → decode l.codec h.modelVersion blob = .ok (h, v)) ∧
      readHeader blob = .ok h := by
  obtain ⟨body, hbody⟩ := hform
  have hblob : encode l.codec h v level = .ok (Zstandard.compress level (h.encode ++ body)) :=
    encode_of_codec hbody h level
  refine ⟨_, hblob, fun hformat => ?_, readHeader_encode hblob⟩
  exact decode_encode l.faithful_codec hv hformat hblob

/-- Trees of named nodes, each with a weight and with any number of trees below it. -/
def treeLayout : Layout :=
  { root := .ref 0, defs := [.tuple [.string, .float64, .map (.nat .w64) (.ref 0)]] }

/-- A node with nothing below it. -/
def leaf (name : String) (bits : UInt64) : Value := .tuple [.string name, .float64 bits, .map []]

theorem admits_leaf {name : String} (bound : name.utf8ByteSize < Nat.pow 2 64) (bits : UInt64) :
    treeLayout.Admits (leaf name bits) := by
  refine .ref rfl (.consTuple (.string bound) (.consTuple .float64 (.consTuple ?_ .emptyTuple)))
  exact .map (by decide) (by simp) (by simp) .nil

/-- A tree of two nodes, one of them with a weight that is not a number, is read back. -/
theorem read_encode_tree :
    ∃ blob, encode treeLayout.codec ⟨1, 7, 3, 1700000000⟩
        (.tuple [.string "root", .float64 0, .map [(.nat .w64 5, leaf "leaf" 0x7ff8000000000001)]]) 19 =
          .ok blob ∧
      ((1 : UInt32) = formatVersion → decode treeLayout.codec 7 blob = .ok (⟨1, 7, 3, 1700000000⟩,
        .tuple [.string "root", .float64 0, .map [(.nat .w64 5, leaf "leaf" 0x7ff8000000000001)]])) ∧
      readHeader blob = .ok ⟨1, 7, 3, 1700000000⟩ := by
  have htree : treeLayout.Admits
      (.tuple [.string "root", .float64 0, .map [(.nat .w64 5, leaf "leaf" 0x7ff8000000000001)]]) := by
    refine .ref rfl (.consTuple (.string (by decide)) (.consTuple .float64 (.consTuple ?_ .emptyTuple)))
    refine .map (by decide) ?_ ?_ (List.pairwise_singleton _ _)
    · intro e he
      rw [List.mem_singleton.mp he]
      exact .nat (by decide)
    · intro e he
      rw [List.mem_singleton.mp he]
      exact admits_leaf (by decide) _
  exact read_encode htree (treeLayout.exists_encode rfl htree) ⟨1, 7, 3, 1700000000⟩ 19

end Snapshot

end SnapStore
