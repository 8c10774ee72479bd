import SnapStore.Proofs.Model.Rest
import SnapStore.Proofs.Snapshot.Canonical
import SnapStore.Proofs.Snapshot.Outcomes
import SnapStore.Proofs.Zstandard.Concatenation
import SnapStore.Proofs.Zstandard.Reach

namespace SnapStore

/-!
# Blobs with more behind them

A snapshot is read from the front of what a blob holds, so that more of that makes no difference.  More bytes
behind a blob make none either if they are frames that can be decompressed there, which frames that keep the
rules of the format can be.  A frame that breaks them may only be decompressed where it stands alone.

* `Snapshot.Header.leavesRest_decode` — a header leaves the rest alone.
* `Snapshot.Extends.decode` — a snapshot is read as well where more is behind it.
* `Snapshot.blobs_concatenate` — more frames behind a blob.
-/

namespace Snapshot

variable {M : Type} {codec : Codec M} {h : Header} {expected : UInt32} {a b : Bytes}

theorem Header.leavesRest_decode : Header.decode.LeavesRest :=
  (Decode.leavesRest_varint 32).bind fun _ => (Decode.leavesRest_varint 32).bind fun _ =>
    (Decode.leavesRest_varint 64).bind fun _ => (Decode.leavesRest_varint 64).bind fun _ =>
      Reader.leavesRest_pure _

theorem payload_of_decompress {content : Bytes} (h : Zstandard.decompress a = .ok content) :
    payload a = .ok content := by
  rw [payload, if_neg (mt List.isEmpty_iff.mp (Zstandard.ne_nil_of_decompress h)), h]

theorem takeHeader_of_fault {e : Zstandard.Fault} (hne : a ≠ []) (h : Zstandard.decompress a = .error e) :
    takeHeader a = .error (.corrupted (.frame e)) := by
  have hpayload : payload a = .error (.corrupted (.frame e)) := by
    rw [payload, if_neg (mt List.isEmpty_iff.mp hne), h]
  simp only [takeHeader, hpayload, bind, Except.bind]

theorem takeHeader_of_payload {content body : Bytes} (hpayload : payload a = .ok content)
    (hheader : Header.decode content = .ok (h, body)) : takeHeader a = .ok (h, body) := by
  simp only [takeHeader, hpayload, hheader, bind, Except.bind]

/-! ### More behind a snapshot -/

/-- One blob holds what another one does, and more behind that. -/
def Extends (a b : Bytes) : Prop := ∃ x y, payload a = .ok x ∧ payload b = .ok (x ++ y)

/-- A header is read all the same, and what is behind it has more behind it. -/
theorem Extends.takeHeader {body : Bytes} (hab : Extends a b) (htake : takeHeader a = .ok (h, body)) :
    ∃ more, takeHeader b = .ok (h, body ++ more) := by
  obtain ⟨x, y, ha, hb⟩ := hab
  obtain ⟨content, hpayload, hheader⟩ := eq_ok_of_takeHeader htake
  rw [ha] at hpayload
  cases hpayload
  exact ⟨y, takeHeader_of_payload hb (Header.leavesRest_decode x h body hheader y)⟩

theorem Extends.readHeader (hab : Extends a b) (hread : readHeader a = .ok h) : readHeader b = .ok h := by
  obtain ⟨⟨h', body⟩, htake, hh⟩ := bind_eq_ok_iff.mp hread
  cases hh
  obtain ⟨more, htake⟩ := hab.takeHeader htake
  simp only [Snapshot.readHeader, htake, bind, Except.bind, pure, Except.pure]

/-- **More behind a snapshot.** It is decoded all the same by a reader that leaves the rest alone. -/
theorem Extends.decode {m : M} (hab : Extends a b) (hcodec : codec.decode.LeavesRest)
    (hdecode : decode codec expected a = .ok (h, m)) : decode codec expected b = .ok (h, m) := by
  obtain ⟨hformat, hmodel, content, body, rest, hpayload, hheader, hm⟩ := eq_ok_of_decode hdecode
  obtain ⟨more, htake⟩ := hab.takeHeader (takeHeader_of_payload hpayload hheader)
  have hbehind := hcodec body m rest hm more
  have hformat : ¬ h.formatVersion ≠ formatVersion := not_not.mpr hformat
  have hmodel : ¬ h.modelVersion ≠ expected := not_not.mpr hmodel
  simp only [Snapshot.decode, htake, bind, Except.bind, if_neg hformat, if_neg hmodel, hbehind]
  rfl

/-- **Blobs in front of other frames.** Two blobs that can be decompressed hold the contents of both when
they stand one behind the other, if the frames of the second one keep the rules of the format.  So a header
and a snapshot are read from the first one all the same. -/
theorem blobs_concatenate {x y : Bytes} (ha : Zstandard.decompress a = .ok x)
    (hb : Zstandard.decompress b = .ok y) (hkeeps : Zstandard.Format.Keeps b) :
    Zstandard.decompress (a ++ b) = .ok (x ++ y) ∧
      (∀ h, readHeader a = .ok h → readHeader (a ++ b) = .ok h) ∧
      (∀ {M : Type} (codec : Codec M), codec.decode.LeavesRest → ∀ expected h m,
        decode codec expected a = .ok (h, m) → decode codec expected (a ++ b) = .ok (h, m)) ∧
      ∀ (l : Layout) expected h v, decode l.codec expected a = .ok (h, v) →
        decode l.codec expected (a ++ b) = .ok (h, v) := by
  have hab := Zstandard.decompress_append ha hb hkeeps
  have hextends : Extends a (a ++ b) := ⟨x, y, payload_of_decompress ha, payload_of_decompress hab⟩
  refine ⟨hab, fun h => hextends.readHeader, fun codec hcodec expected h m => hextends.decode hcodec, ?_⟩
  exact fun l expected h v => hextends.decode l.leavesRest_decode

/-! ### Two pairs of blobs -/

/-- Texts. -/
def textLayout : Layout := { root := .string }

/-- A blob of a text, whose frame asks for a larger window than it needs. -/
def wide : Bytes :=
  [0x28, 0xb5, 0x2f, 0xfd, 0x00, 0x3b, 0x31, 0x00, 0x00, 0x01, 0x01, 0x02, 0x03, 0x01, 0x6d]

theorem decompress_wide : Zstandard.decompress wide = .ok [0x01, 0x01, 0x02, 0x03, 0x01, 0x6d] := by
  decide +kernel

theorem takeHeader_wide : takeHeader wide = .ok (⟨1, 1, 2, 3⟩, [0x01, 0x6d]) :=
  takeHeader_of_payload (payload_of_decompress decompress_wide) rfl

theorem readHeader_wide : readHeader wide = .ok ⟨1, 1, 2, 3⟩ := by
  simp only [readHeader, takeHeader_wide, bind, Except.bind, pure, Except.pure]

theorem decode_wide : decode textLayout.codec 1 wide = .ok (⟨1, 1, 2, 3⟩, .string "m") := by
  simp only [decode, takeHeader_wide, bind, Except.bind]
  rfl

/-- A skippable frame, and one that has a block of each kind and a checksum. -/
def mixed : Bytes :=
  [0x50, 0x2a, 0x4d, 0x18, 0x03, 0x00, 0x00, 0x00, 0x61, 0x62, 0x63] ++
    [0x28, 0xb5, 0x2f, 0xfd, 0x04, 0x00, 0x10, 0x00, 0x00, 0x61, 0x62, 0x2a, 0x00, 0x00, 0x7a,
      0x3d, 0x00, 0x00, 0x00, 0x01, 0x54, 0x00, 0x02, 0x00, 0x06, 0xa9, 0xf7, 0xfb, 0x74]

theorem keeps_mixed : Zstandard.Format.Keeps mixed :=
  ⟨[0x61, 0x62, 0x7a, 0x7a, 0x7a, 0x7a, 0x7a, 0x7a, 0x7a, 0x7a], by decide +kernel⟩

/-- Behind the blob of a text, such frames make no difference to it. -/
theorem wide_and_mixed_concatenate :
    Zstandard.decompress wide = .ok [0x01, 0x01, 0x02, 0x03, 0x01, 0x6d] ∧
      Zstandard.decompress mixed = .ok [0x61, 0x62, 0x7a, 0x7a, 0x7a, 0x7a, 0x7a, 0x7a, 0x7a, 0x7a] ∧
      Zstandard.Format.Keeps mixed ∧
      Zstandard.decompress (wide ++ mixed) = .ok ([0x01, 0x01, 0x02, 0x03, 0x01, 0x6d] ++
        [0x61, 0x62, 0x7a, 0x7a, 0x7a, 0x7a, 0x7a, 0x7a, 0x7a, 0x7a]) ∧
      readHeader (wide ++ mixed) = .ok ⟨1, 1, 2, 3⟩ ∧
      decode textLayout.codec 1 (wide ++ mixed) = .ok (⟨1, 1, 2, 3⟩, .string "m") := by
  have hmixed : Zstandard.decompress mixed =
      .ok [0x61, 0x62, 0x7a, 0x7a, 0x7a, 0x7a, 0x7a, 0x7a, 0x7a, 0x7a] := by decide +kernel
  obtain ⟨hjoined, hheaders, -, hlayouts⟩ := blobs_concatenate decompress_wide hmixed keeps_mixed
  exact ⟨decompress_wide, hmixed, keeps_mixed, hjoined, hheaders _ readHeader_wide,
    hlayouts textLayout 1 _ _ decode_wide⟩

/-- The frame of the first blob leaves a buffer that is larger than the second one needs. -/
theorem decodeFrame_wide : ∃ content buffers taken,
    Zstandard.Frame.decode {} { rest := wide } = .ok (content, buffers, ⟨[], taken⟩) ∧
      (buffers.provide 131072 393280).output = 442432 := by
  have hsummary : (Zstandard.Frame.decode {} { rest := wide }).map
      (fun r => ((r.2.1.provide 131072 393280).output, r.2.2.rest)) = .ok (442432, []) := by
    decide +kernel
  cases hdecode : Zstandard.Frame.decode {} { rest := wide } with
  | error e =>
    rw [hdecode] at hsummary
    cases hsummary
  | ok r =>
    obtain ⟨content, buffers, rest, taken⟩ := r
    rw [hdecode] at hsummary
    obtain ⟨houtput, rfl⟩ := Prod.mk.inj (Except.ok.inj hsummary)
    exact ⟨content, buffers, taken, rfl, houtput⟩

theorem decompress_wide_remote :
    Zstandard.decompress (wide ++ Zstandard.Frame.remote) = .error .corrupted := by
  obtain ⟨content, buffers, taken, hfirst, houtput⟩ := decodeFrame_wide
  obtain ⟨content', hsecond⟩ := Zstandard.decodeAll_remote buffers taken
  have hheld : ¬ 400000 ≤ Zstandard.Frame.heldBehindStretches 442432 := by decide
  rw [houtput, if_neg hheld] at hsecond
  have hne : wide ++ Zstandard.Frame.remote ≠ [] := List.cons_ne_nil _ _
  rw [Zstandard.decompress_of_ne_nil hne]
  show Zstandard.decodeAll {} (Zstandard.Source.followedBy { rest := wide } Zstandard.Frame.remote) = _
  rw [Zstandard.decodeAll_of_decode (Zstandard.Frame.decode_followed hfirst _)]
  show (Zstandard.decodeAll buffers ⟨Zstandard.Frame.remote, taken⟩).map _ = _
  rw [hsecond]
  rfl

theorem exists_decompress_remote : ∃ y, Zstandard.decompress Zstandard.Frame.remote = .ok y := by
  obtain ⟨y, hremote⟩ := Zstandard.decodeAll_remote {} 0
  have hheld : 400000 ≤ Zstandard.Frame.heldBehindStretches
      (({} : Zstandard.Buffers).provide 131072 393280).output := by decide
  have hne : Zstandard.Frame.remote ≠ [] := List.cons_ne_nil _ _
  rw [if_pos hheld] at hremote
  exact ⟨y, (Zstandard.decompress_of_ne_nil hne).trans hremote⟩

/-- **A frame that breaks the rules** is decompressed where it stands alone, and not behind that blob: there
the larger buffer is started again at another place, and holds less of what the frame copies. -/
theorem wide_and_remote_do_not_concatenate :
    Zstandard.decompress wide = .ok [0x01, 0x01, 0x02, 0x03, 0x01, 0x6d] ∧
      (∃ y, Zstandard.decompress Zstandard.Frame.remote = .ok y) ∧
      Zstandard.decompress (wide ++ Zstandard.Frame.remote) = .error .corrupted ∧
      (readHeader wide = .ok ⟨1, 1, 2, 3⟩ ∧
        readHeader (wide ++ Zstandard.Frame.remote) = .error (.corrupted (.frame .corrupted))) ∧
      decode textLayout.codec 1 wide = .ok (⟨1, 1, 2, 3⟩, .string "m") ∧
      decode textLayout.codec 1 (wide ++ Zstandard.Frame.remote) =
        .error (.corrupted (.frame .corrupted)) := by
  have htake := takeHeader_of_fault (List.cons_ne_nil _ _) decompress_wide_remote
  obtain ⟨hread, hdecode⟩ := of_takeHeader_error htake textLayout.codec 1
  exact ⟨decompress_wide, exists_decompress_remote, decompress_wide_remote, ⟨readHeader_wide, hread⟩,
    decode_wide, hdecode⟩

end Snapshot

end SnapStore
