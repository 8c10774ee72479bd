import SnapStore.Zstandard.Checksum
import SnapStore.Zstandard.Frame.Header
import SnapStore.Zstandard.Frame.Magic

namespace SnapStore.Zstandard

/-!
# Frames of earlier editions

In earlier editions of the format, the header of a block has the kind in its first bits and the size,
highest byte first, in the others.  A kind of its own ends the frame; so does an empty block, whose
contents nobody waits for.

* `Edition.readHeader` reads the header of a frame.
* `Edition.decode` decodes a frame.  Only blocks that are stored as they are can be read.
-/

namespace Edition

/-! ### Headers -/

/-- What the header of a frame says. -/
structure Header where
  /-- How far back a block can copy from. -/
  window : Nat
  /-- The most bytes that a block should produce. -/
  block : Nat
  /-- The size of the buffer for what is produced. -/
  output : Nat
  /-- Whether a checksum stands at the end. -/
  checksum : Bool := false
  deriving DecidableEq, Repr

/-- The number of bytes that are kept free at the end of the buffer since the sixth edition. -/
def gap : Nat := 16

/-- The header of a frame of the sixth or seventh edition. -/
def Header.ofWindow (window : Nat) (checksum : Bool) : Header :=
  let block := min window Literals.blockLimit
  { window, block, output := window + block + gap, checksum }

/-- Reads the header of a frame of the fourth or fifth edition, which is the exponent of the window. -/
def readExponent (s : Source) : Except Fault (Header × Source) := do
  let (flags, s) ← s.take 1
  let flags := Bytes.toNatLE flags
  if flags / 16 ≠ 0 then throw .unsupported
  let window := Nat.pow 2 (flags + 11)
  pure ({ window, block := Literals.blockLimit, output := window }, s)

/-- Reads the header of a frame of the sixth edition: the exponent of the window, and the size of the
contents, which is not checked. -/
def readSized (s : Source) : Except Fault (Header × Source) := do
  let (flags, s) ← s.take 1
  let flags := Bytes.toNatLE flags
  let (_, s) ← s.take (if flags / 64 = 3 then 8 else flags / 64)
  if flags / 32 % 2 = 1 then throw .unsupported
  pure (.ofWindow (Nat.pow 2 (flags % 16 + 12)) false, s)

/-- The exponent of the largest window of the seventh edition. -/
def exponentLimit : Nat := 27

/-- What the fields of a header of the seventh edition say. -/
def ofFields (f : Frame.Header.Fields) : Except Fault Header := do
  if f.flags / 8 % 2 = 1 then throw .unsupported
  if f.window.any fun x => exponentLimit < x.toNat / 8 + 10 then throw .unsupported
  let declared := Bytes.toNatLE f.size + (if f.size.length = 2 then 256 else 0)
  let window := match f.window with
    | x :: _ => Frame.Header.windowOf x
    | [] => declared % Nat.pow 2 32
  if Nat.pow 2 exponentLimit < window then throw .unsupported
  if Bytes.toNatLE f.dictionary ≠ 0 then throw .dictionaryMismatch
  pure (.ofWindow (max window Frame.leastWindow) (f.flags / 4 % 2 = 1))

/-- Reads the header that follows a magic number. -/
def readHeader (e : Edition) (s : Source) : Except Fault (Header × Source) :=
  match e with
  | .fourth | .fifth => readExponent s
  | .sixth => readSized s
  | .seventh => do
    let (fields, s) ← Frame.Header.Fields.read s
    let header ← ofFields fields
    pure (header, s)

theorem readHeader_length {e : Edition} {s after : Source} {header : Header}
    (h : e.readHeader s = .ok (header, after)) : after.rest.length < s.rest.length := by
  cases e
  case fourth | fifth =>
    simp only [readHeader, readExponent, bind, Except.bind, pure, Except.pure] at h
    split at h
    · cases h
    rename_i hs
    have := Source.take_length hs
    split at h
    · cases h
    · simp only [Except.ok.injEq, Prod.mk.injEq] at h
      rw [← h.2]
      omega
  case sixth =>
    simp only [readHeader, readSized, bind, Except.bind, pure, Except.pure] at h
    split at h
    · cases h
    rename_i h1
    have h1 := Source.take_length h1
    split at h
    · cases h
    rename_i h2
    have h2 := Source.take_length h2
    split at h
    · cases h
    · simp only [Except.ok.injEq, Prod.mk.injEq] at h
      rw [← h.2]
      omega
  case seventh =>
    simp only [readHeader, bind, Except.bind, pure, Except.pure] at h
    split at h
    · cases h
    rename_i hf
    split at h
    · cases h
    · simp only [Except.ok.injEq, Prod.mk.injEq] at h
      exact h.2 ▸ Frame.Header.Fields.read_length hf

/-! ### Blocks -/

/-- How a block is stored. -/
inductive BlockKind
  | compressed | raw | run
  | /-- There is no block. -/ none
  deriving DecidableEq, Repr

/-- What stands in front of a block. -/
structure BlockHeader where
  kind : BlockKind
  /-- The number of bytes that follow, unless it is a run. -/
  size : Nat
  /-- The part of a checksum that stands in the place of the size. -/
  sum : Nat

namespace BlockHeader

/-- Reads a block header from its bytes. -/
def ofBytes (b : Bytes) : BlockHeader :=
  let n := Bytes.toNatLE b.reverse
  let kind := match n / Nat.pow 2 22 with
    | 0 => .compressed
    | 1 => .raw
    | 2 => .run
    | _ => .none
  { kind, size := n % Nat.pow 2 19, sum := n % Nat.pow 2 22 }

/-- The number of bytes that follow the header. -/
def stored (h : BlockHeader) : Nat :=
  match h.kind with
  | .none => 0
  | .run => 1
  | _ => h.size

end BlockHeader

/-- The part of the hash of the contents that ends a frame. -/
def checksumOf (content : Bytes) : Nat := (Checksum.hash content).toNat / Nat.pow 2 11 % Nat.pow 2 22

/-- The contents of a block. -/
def decodeBlock (kind : BlockKind) (stored : Bytes) (room : Nat) : Except Fault Bytes :=
  match kind with
  | .raw => if room < stored.length then .error .outputTooSmall else .ok stored
  | .run => .error .unknownBlock
  | _ => .error .corrupted

/-- The buffers of a decoder for the frames of an edition. -/
structure Buffers where
  edition : Edition
  /-- The size of the buffer for blocks that arrive in parts. -/
  input : Nat
  /-- The size of the buffer for what is produced. -/
  output : Nat

/-- Decodes blocks up to the end of a frame and puts their contents behind `content`, of which the last
`used` bytes are in the buffer. -/
def blocks (b : Buffers) (header : Header) (s : Source) (content : Bytes) (used : Nat) :
    Except Fault (Bytes × Source) :=
  match _head : s.takeBuffered b.input 3 with
  | .error e => .error e
  | .ok (raw, s) =>
    let block := BlockHeader.ofBytes raw
    if block.kind = .none ∧ header.checksum ∧ block.sum ≠ checksumOf content then
      .error .checksumMismatch
    else if block.stored = 0 then .ok (content, s)
    else
      match _body : s.takeBuffered b.input block.stored with
      | .error e => .error e
      | .ok (stored, s) =>
        match decodeBlock block.kind stored (b.output - used) with
        | .error e => .error e
        | .ok piece =>
          let used := used + piece.length
          let isFull := piece ≠ [] ∧ b.output < used + header.block
          blocks b header s (content ++ piece) (if isFull then 0 else used)
termination_by s.rest.length
decreasing_by
  have h1 := Source.takeBuffered_length _head
  have h2 := Source.takeBuffered_length _body
  omega

theorem blocks_length {b : Buffers} {header : Header} {s rest : Source} {content out : Bytes} {used : Nat}
    (h : blocks b header s content used = .ok (out, rest)) : rest.rest.length ≤ s.rest.length := by
  fun_induction blocks b header s content used with
  | case1 => cases h
  | case2 => cases h
  | case3 _ _ _ _ _ head =>
    cases h
    have := Source.takeBuffered_length head
    omega
  | case4 => cases h
  | case5 => cases h
  | case6 _ _ _ _ _ head _ _ _ _ _ body _ _ _ _ ih =>
    have h1 := Source.takeBuffered_length head
    have h2 := Source.takeBuffered_length body
    have := ih h
    omega

/-- The size of the buffer for blocks that arrive in parts. -/
def inputSize (e : Edition) (header : Header) : Nat :=
  match e with
  | .fourth | .fifth => Literals.blockLimit
  | _ => header.block

/-- Provides buffers of at least the sizes that a frame needs.  Those of another edition are given up. -/
def provide (e : Edition) (header : Header) (earlier : Option Buffers) : Buffers :=
  match earlier.filter (·.edition = e) with
  | some b => { b with input := max b.input (e.inputSize header), output := max b.output header.output }
  | none => ⟨e, e.inputSize header, header.output⟩

/-- Decodes what follows the magic number of a frame. -/
def decode (e : Edition) (earlier : Option Buffers) (s : Source) :
    Except Fault (Bytes × Buffers × Source) := do
  let (header, s) ← e.readHeader s
  let buffers := e.provide header earlier
  let (content, s) ← blocks buffers header s [] 0
  pure (content, buffers, s)

theorem decode_length {e : Edition} {earlier : Option Buffers} {s rest : Source} {content : Bytes}
    {after : Buffers} (h : e.decode earlier s = .ok (content, after, rest)) :
    rest.rest.length < s.rest.length := by
  simp only [decode, bind, Except.bind, pure, Except.pure] at h
  split at h
  · cases h
  rename_i h1
  split at h
  · cases h
  rename_i h2
  cases h
  have h1 := readHeader_length h1
  have h2 := blocks_length h2
  omega

end Edition

end SnapStore.Zstandard
