import SnapStore.Error
import SnapStore.Zstandard.Compress

namespace SnapStore

/-!
# Snapshots

A snapshot is a model with a header.  Its stored form, the blob, is one compressed frame that holds
the header and the model one after the other.

* `Codec` is how the models of a host are written and read; `Layout.codec` is the one of a schema.
* `Snapshot.encode` makes a blob.
* `Snapshot.decode` reads a blob back, if its format and model versions are the expected ones.
* `Snapshot.readHeader` reads the header alone, whatever its format version, without knowing the
  model type.
-/

/-- How the models of a host are written and read.  A reader leaves what follows the model alone. -/
structure Codec (M : Type) where
  encode : M → Except EncodeError Bytes
  decode : Reader DecodeError M

/-- How the models of a schema are written and read. -/
def Layout.codec (l : Layout) : Codec Value := ⟨Value.encode, l.decode⟩

namespace Snapshot

/-- The version of the layout that this library writes. -/
def formatVersion : UInt32 := 1

/-- What is stored in front of a model. -/
structure Header where
  /-- The version of the layout of the blob. -/
  formatVersion : UInt32 := Snapshot.formatVersion
  /-- The version of the model type, as the host counts it. -/
  modelVersion : UInt32
  /-- How many times the slot has been saved. -/
  generation : UInt64
  /-- When the snapshot was saved, in seconds since 1970. -/
  savedAt : UInt64
  deriving DecidableEq, Repr

/-- The stored form of a header. -/
def Header.encode (h : Header) : Bytes :=
  Varint.encode h.formatVersion.toNat ++ Varint.encode h.modelVersion.toNat ++
    Varint.encode h.generation.toNat ++ Varint.encode h.savedAt.toNat

/-- Reads a header. -/
def Header.decode : Reader DecodeError Header := fun b => do
  let (format, b) ← Decode.varint 32 b
  let (model, b) ← Decode.varint 32 b
  let (generation, b) ← Decode.varint 64 b
  let (savedAt, b) ← Decode.varint 64 b
  pure (⟨UInt32.ofNat format, UInt32.ofNat model, UInt64.ofNat generation, UInt64.ofNat savedAt⟩, b)

/-- The blob of a snapshot, compressed with the given effort. -/
def encode {M : Type} (codec : Codec M) (h : Header) (model : M) (level : Int) :
    Except CacheError Bytes :=
  match codec.encode model with
  | .ok body => .ok (Zstandard.compress level (h.encode ++ body))
  | .error e => .error (.serialization (.model e))

/-- What a blob holds. -/
def payload (blob : Bytes) : Except CacheError Bytes :=
  if blob.isEmpty then .error (.corrupted .emptyBlob)
  else
    match Zstandard.decompress blob with
    | .ok b => .ok b
    | .error fault => .error (.corrupted (.frame fault))

/-- The header of a blob and the bytes after it. -/
def takeHeader (blob : Bytes) : Except CacheError (Header × Bytes) := do
  let b ← payload blob
  match Header.decode b with
  | .ok r => .ok r
  | .error e => .error (.corrupted (.header e))

/-- The header of a blob. -/
def readHeader (blob : Bytes) : Except CacheError Header := do
  let (h, _) ← takeHeader blob
  pure h

/-- The snapshot in a blob, whose model must have the expected version. -/
def decode {M : Type} (codec : Codec M) (expected : UInt32) (blob : Bytes) :
    Except CacheError (Header × M) := do
  let (h, body) ← takeHeader blob
  if h.formatVersion ≠ formatVersion then
    throw (.versionMismatch (.format h.formatVersion formatVersion))
  if h.modelVersion ≠ expected then
    throw (.versionMismatch (.model h.modelVersion expected))
  match codec.decode body with
  | .ok (model, _) => pure (h, model)
  | .error e => throw (.corrupted (.model e))

end Snapshot

end SnapStore
