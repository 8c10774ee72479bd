import SnapStore.Proofs.Model.Spelling
import SnapStore.Proofs.Snapshot.RoundTrip

namespace SnapStore

/-!
# The canonical form of a blob

The same snapshot can be stored in many ways: with padded numbers, with the entries of a map in any order
and some of them given up for later ones, with bytes behind the model, in several frames.  What is written
of a snapshot that has been decoded is one of these, a shortest one, and the same for all of them.

* `Layout.IsSerializable` — every value of a model type has a binary form.
* `Snapshot.Header.reads_decode` — a header is not longer when it is written.
* `Snapshot.exists_payload_of_decode` — what is decoded is spelled by what the blob holds.
* `Snapshot.payload_injective` — what is written says which snapshot it is of.
* `Snapshot.IsCanonical` — the bytes that are stored of a snapshot whenever it is written, and of no other.
* `Snapshot.encode_is_canonical` — every snapshot that is decoded has such bytes, and they are not more than
  those that it was decoded from.
-/

/-- Every value of the type has a binary form.  It is so if no part of the type is a sequence of unknown
length (`Layout.exists_encode`). -/
def Layout.IsSerializable (l : Layout) : Prop := ∀ v, l.Admits v → ∃ body, v.encode = .ok body

namespace Snapshot

/-! ### Headers -/

/-- A header that is read is not longer when it is written. -/
theorem Header.reads_decode : Header.decode.Reads fun h n => h.encode.length ≤ n := by
  intro b h rest hr
  obtain ⟨format, front₁, b₁, rfl, ⟨hformat, hlen₁⟩, h₁⟩ := (Decode.reads_varint 32).of_bind hr
  obtain ⟨model, front₂, b₂, rfl, ⟨hmodel, hlen₂⟩, h₂⟩ := (Decode.reads_varint 32).of_bind h₁
  obtain ⟨generation, front₃, b₃, rfl, ⟨hgeneration, hlen₃⟩, h₃⟩ := (Decode.reads_varint 64).of_bind h₂
  obtain ⟨savedAt, front₄, b₄, rfl, ⟨hsavedAt, hlen₄⟩, h₄⟩ := (Decode.reads_varint 64).of_bind h₃
  cases h₄
  refine ⟨front₁ ++ (front₂ ++ (front₃ ++ front₄)), by simp only [List.append_assoc], ?_⟩
  simp only [Header.encode, List.length_append, UInt32.toNat_ofNat_of_lt' hformat,
    UInt32.toNat_ofNat_of_lt' hmodel, UInt64.toNat_ofNat_of_lt' hgeneration,
    UInt64.toNat_ofNat_of_lt' hsavedAt]
  omega

/-! ### What a blob holds -/

variable {M : Type} {codec : Codec M} {l : Layout} {h : Header} {expected : UInt32} {blob : Bytes}

/-- A header is read from the front of what the blob holds. -/
theorem eq_ok_of_takeHeader {body : Bytes} (htake : takeHeader blob = .ok (h, body)) :
    ∃ content, payload blob = .ok content ∧ Header.decode content = .ok (h, body) := by
  obtain ⟨content, hpayload, hheader⟩ := bind_eq_ok_iff.mp htake
  refine ⟨content, hpayload, ?_⟩
  split at hheader
  · rename_i hr
    cases hheader
    exact hr
  · cases hheader

/-- A snapshot that is decoded is of the expected versions, and is what the bytes of the blob say. -/
theorem eq_ok_of_decode {m : M} (hdecode : decode codec expected blob = .ok (h, m)) :
    h.formatVersion = formatVersion ∧ h.modelVersion = expected ∧
      ∃ content body rest, payload blob = .ok content ∧ Header.decode content = .ok (h, body) ∧
        codec.decode body = .ok (m, rest) := by
  obtain ⟨⟨h', body⟩, htake, hrest⟩ := bind_eq_ok_iff.mp hdecode
  obtain ⟨content, hpayload, hheader⟩ := eq_ok_of_takeHeader htake
  simp only at hrest
  split at hrest
  · cases hrest
  rename_i hformat
  split at hrest
  · cases hrest
  rename_i hmodel
  split at hrest
  · rename_i m' rest hm
    cases hrest
    exact ⟨not_not.mp hformat, not_not.mp hmodel, content, body, rest, hpayload, hheader, hm⟩
  · cases hrest

/-- **What is decoded is spelled by the blob.** It is a value of the model type, and what is written of it
behind its header is not longer than what the blob holds. -/
theorem exists_payload_of_decode {v : Value} (hdecode : decode l.codec expected blob = .ok (h, v)) :
    l.Admits v ∧ ∃ content, payload blob = .ok content ∧ h.encode.length + v.size ≤ content.length := by
  obtain ⟨-, -, content, body, rest, hpayload, hheader, hv⟩ := eq_ok_of_decode hdecode
  obtain ⟨front, rfl, hlen⟩ := Header.reads_decode _ _ _ hheader
  obtain ⟨front', rfl, hadmits, hsize⟩ := l.reads_decode _ _ _ hv
  refine ⟨hadmits, _, hpayload, ?_⟩
  simp only [List.length_append]
  omega

/-- What is written says which snapshot it is of. -/
theorem payload_injective {h₂ : Header} {v v₂ : Value} {body body₂ : Bytes} (hv : l.Admits v)
    (hv₂ : l.Admits v₂) (hbody : v.encode = .ok body) (hbody₂ : v₂.encode = .ok body₂)
    (hsame : h₂.encode ++ body₂ = h.encode ++ body) : (h₂, v₂) = (h, v) := by
  -- both headers are read from the same bytes, and then both values are
  have hheader := h.takes_decode body
  rw [← hsame, h₂.takes_decode body₂] at hheader
  cases hheader
  have hread := Layout.decode_append hv hbody []
  rw [Layout.decode_append hv₂ hbody₂ []] at hread
  cases hread
  rfl

/-- The bytes that are stored of a snapshot whenever it is written. -/
structure IsCanonical (l : Layout) (expected : UInt32) (h : Header) (v : Value) (canonical : Bytes) :
    Prop where
  /-- The snapshot can be written at every level, and is decoded from what is written. -/
  written : ∀ level, ∃ blob, encode l.codec h v level = .ok blob ∧ payload blob = .ok canonical ∧
    decode l.codec expected blob = .ok (h, v)
  /-- Of the snapshots that have been decoded from anything, no other one is written like that. -/
  unique : ∀ stored expected' h' v' level blob, decode l.codec expected' stored = .ok (h', v') →
    encode l.codec h' v' level = .ok blob → (payload blob = .ok canonical ↔ (h', v') = (h, v))

theorem isCanonical_of_decode {v : Value} {body : Bytes}
    (hdecode : decode l.codec expected blob = .ok (h, v)) (hbody : v.encode = .ok body) :
    IsCanonical l expected h v (h.encode ++ body) := by
  obtain ⟨hadmits, -⟩ := exists_payload_of_decode hdecode
  obtain ⟨hformat, hmodel, -⟩ := eq_ok_of_decode hdecode
  refine ⟨fun level => ?_, fun stored expected' h' v' level again hdecode' hagain => ?_⟩
  · have hblob : encode l.codec h v level = .ok (Zstandard.compress level (h.encode ++ body)) :=
      encode_of_codec hbody h level
    have hagain := decode_encode l.faithful_codec hadmits hformat hblob
    rw [hmodel] at hagain
    exact ⟨_, hblob, payload_compress level _, hagain⟩
  · obtain ⟨body', hbody', rfl⟩ := codec_of_encode hagain
    rw [payload_compress]
    constructor
    · intro hsame
      exact payload_injective hadmits (exists_payload_of_decode hdecode').1 hbody hbody'
        (Except.ok.inj hsame)
    · intro hsame
      cases hsame
      rw [Except.ok.inj (hbody.symm.trans hbody')]

/-- **Whatever decodes has one canonical form.** A snapshot that has been decoded from any blob can be
written again.  What is written is the same at every level, decodes to the same snapshot, and holds no more
than the blob did; and no other snapshot is written like that. -/
theorem encode_is_canonical (hl : l.IsSerializable) {v : Value}
    (hdecode : decode l.codec expected blob = .ok (h, v)) :
    ∃ content canonical, payload blob = .ok content ∧ canonical.length ≤ content.length ∧
      IsCanonical l expected h v canonical := by
  obtain ⟨hadmits, content, hpayload, hlen⟩ := exists_payload_of_decode hdecode
  obtain ⟨body, hbody⟩ := hl v hadmits
  refine ⟨content, h.encode ++ body, hpayload, ?_, isCanonical_of_decode hdecode hbody⟩
  rw [List.length_append, ← Value.size_of_encode hbody]
  exact hlen

/-- Maps of signed numbers. -/
def balancesLayout : Layout := { root := .map (.nat .w64) (.int .w32) }

/-- A header whose model version is padded, and a map whose keys descend, one of them twice and first with
a padded number, with a byte behind it. -/
def untidy : Bytes :=
  [0x01, 0x87, 0x80, 0x00, 0x03, 0x05, 0x03, 0x09, 0x82, 0x00, 0x02, 0x04, 0x09, 0x01, 0xff]

/-- What is read of that map. -/
def tidy : Value := .map [(.nat .w64 2, .int .w32 2), (.nat .w64 9, .int .w32 (-1))]

theorem decode_untidy :
    decode balancesLayout.codec 7 (Zstandard.compress 3 untidy) = .ok (⟨1, 7, 3, 5⟩, tidy) := by
  have hheader : Header.decode untidy = .ok (⟨1, 7, 3, 5⟩, untidy.drop 6) := rfl
  have hmodel : balancesLayout.codec.decode (untidy.drop 6) = .ok (tidy, [0xff]) := rfl
  simp only [decode, takeHeader, payload_compress, hheader, hmodel, bind, Except.bind]
  rfl

/-- It has a canonical form, in order and without padding. -/
theorem encode_tidy_is_canonical :
    ∃ content canonical, payload (Zstandard.compress 3 untidy) = .ok content ∧
      canonical.length ≤ content.length ∧ IsCanonical balancesLayout 7 ⟨1, 7, 3, 5⟩ tidy canonical :=
  encode_is_canonical (fun _ hv => balancesLayout.exists_encode rfl hv) decode_untidy

end Snapshot

end SnapStore
