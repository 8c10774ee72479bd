import SnapStore.Proofs.Model.Turns
import SnapStore.Snapshot

namespace SnapStore

/-!
# What reading a blob comes to

A blob may be any bytes at all.  Its header is either read or not; if it is, its versions say how
decoding goes on.

* `Snapshot.takeHeader_error` — what stops the reading of a header is that the blob is corrupted.
* `Snapshot.Outcome` — what decoding may come to, by what reading the header alone came to.
* `Snapshot.decode_congr` — readers that agree on the bytes behind the header make no difference.
* `Snapshot.outcome_of_any_blob` — decoding comes to that for every blob, and however deep definitions may
  be followed.
-/

/-- How the models of a schema are written and read, if definitions are followed at most so many turns
deep. -/
def Layout.codecWithin (l : Layout) (turns : Nat) : Codec Value :=
  ⟨Value.encode, Schema.decodeAt l.defs turns l.root⟩

namespace Snapshot

variable {M : Type} {codec codec' : Codec M} {expected : UInt32} {blob : Bytes} {e : CacheError}

/-! ### Headers -/

/-- A blob that cannot be decompressed is corrupted. -/
theorem payload_error (h : payload blob = .error e) : ∃ why, e = .corrupted why := by
  unfold payload at h
  split at h
  · cases h
    exact ⟨_, rfl⟩
  · split at h
    · cases h
    · cases h
      exact ⟨_, rfl⟩

/-- A blob whose header cannot be read is corrupted. -/
theorem takeHeader_error (h : takeHeader blob = .error e) : ∃ why, e = .corrupted why := by
  cases hp : payload blob with
  | error e' =>
    simp only [takeHeader, hp, bind, Except.bind, Except.error.injEq] at h
    exact h ▸ payload_error hp
  | ok content =>
    simp only [takeHeader, hp, bind, Except.bind] at h
    split at h
    · cases h
    · cases h
      exact ⟨_, rfl⟩

/-! ### Decoding -/

/-- What decoding a blob comes to, where `alone` is what reading its header comes to: the same error; or a
mismatch of versions, that of the format before that of the model; or the same header with a model, or
the error of the model. -/
def Outcome (expected : UInt32) (alone : Except CacheError Header)
    (whole : Except CacheError (Header × M)) : Prop :=
  match alone with
  | .error e => (∃ why, e = .corrupted why) ∧ whole = .error e
  | .ok h =>
    if h.formatVersion ≠ formatVersion then
      whole = .error (.versionMismatch (.format h.formatVersion formatVersion))
    else if h.modelVersion ≠ expected then
      whole = .error (.versionMismatch (.model h.modelVersion expected))
    else (∃ m, whole = .ok (h, m)) ∨ ∃ why, whole = .error (.corrupted (.model why))

/-- A header that cannot be read is not read, and nothing is decoded. -/
theorem of_takeHeader_error (h : takeHeader blob = .error e) (codec : Codec M) (expected : UInt32) :
    readHeader blob = .error e ∧ decode codec expected blob = .error e := by
  simp only [readHeader, decode, h, bind, Except.bind, and_self]

/-- **Two readers of one blob.** -/
theorem outcome_decode (codec : Codec M) (expected : UInt32) (blob : Bytes) :
    Outcome expected (readHeader blob) (decode codec expected blob) := by
  cases htake : takeHeader blob with
  | error e =>
    obtain ⟨hread, hdecode⟩ := of_takeHeader_error htake codec expected
    rw [hread, hdecode]
    exact ⟨takeHeader_error htake, rfl⟩
  | ok p =>
    obtain ⟨h, body⟩ := p
    have hread : readHeader blob = .ok h := by
      simp only [readHeader, htake, bind, Except.bind, pure, Except.pure]
    rw [hread]
    simp only [Outcome, decode, htake, bind, Except.bind, pure, Except.pure, throw, throwThe,
      MonadExceptOf.throw]
    -- the versions are looked at before what follows the header
    by_cases hformat : h.formatVersion = formatVersion
    · by_cases hmodel : h.modelVersion = expected
      · simp only [hformat, hmodel, ne_eq, not_true_eq_false, if_false]
        cases codec.decode body with
        | ok r => exact .inl ⟨r.1, rfl⟩
        | error why => exact .inr ⟨why, rfl⟩
      · simp only [hformat, hmodel, ne_eq, not_true_eq_false, not_false_eq_true, if_false, if_true]
    · simp only [hformat, ne_eq, not_false_eq_true, if_true]

/-- Codecs that read the same behind the header decode the same. -/
theorem decode_congr (hsame : ∀ h body, takeHeader blob = .ok (h, body) →
    codec.decode body = codec'.decode body) (expected : UInt32) :
    decode codec expected blob = decode codec' expected blob := by
  cases htake : takeHeader blob with
  | error e =>
    rw [(of_takeHeader_error htake codec expected).2, (of_takeHeader_error htake codec' expected).2]
  | ok p => simp only [decode, htake, hsame p.1 p.2 htake, bind, Except.bind]

/-- A model type is decoded without end to its definitions: so many turns as the bytes behind the header
call for are as good as any larger number. -/
theorem decode_codecWithin (l : Layout) (expected : UInt32) (blob : Bytes) :
    ∃ enough, ∀ turns, enough ≤ turns →
      decode (l.codecWithin turns) expected blob = decode l.codec expected blob := by
  cases htake : takeHeader blob with
  | error e =>
    refine ⟨0, fun turns _ => decode_congr (fun h body hbody => ?_) expected⟩
    rw [htake] at hbody
    cases hbody
  | ok p =>
    refine ⟨l.defs.length * (p.2.length + 1) + 1, fun turns hturns => ?_⟩
    refine decode_congr (fun h body hbody => ?_) expected
    rw [htake] at hbody
    cases hbody
    exact l.decodeAt_eq_decode hturns

/-- **Every blob has an outcome.** For any bytes and any model version that is expected, decoding and
reading the header agree, whatever the models are; and models that contain models of their own type are
read to their end, however deep that is. -/
theorem outcome_of_any_blob (expected : UInt32) (blob : Bytes) :
    (∀ {M : Type} (codec : Codec M),
      Outcome expected (readHeader blob) (decode codec expected blob)) ∧
    ∀ l : Layout, ∃ enough, ∀ turns, enough ≤ turns →
      decode (l.codecWithin turns) expected blob = decode l.codec expected blob :=
  ⟨fun codec => outcome_decode codec expected blob, fun l => decode_codecWithin l expected blob⟩

end Snapshot

end SnapStore
