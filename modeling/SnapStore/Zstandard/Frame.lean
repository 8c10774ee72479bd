import SnapStore.Zstandard.Checksum
import SnapStore.Zstandard.Frame.Earlier

namespace SnapStore.Zstandard

/-!
# Frames

Compressed data is a sequence of frames.  A frame is a magic number, a header, blocks up to one that
is marked as the last, and possibly a checksum.  A skippable frame is a magic number, a size and so
many bytes that mean nothing.

* `Frame.decode` decodes the frame at the front of a source.
* `decompress` decodes frame after frame and joins their contents.

A fault is reported as soon as the bytes that show it are there, so that of two faults the one in
front wins, and missing input loses against everything in front of it.

There are two ways to decode a frame.  A small frame that is in sight as a whole is decoded at once; any
other one is decoded block by block into a buffer.  The two differ in what they check: only the second
one looks at the size of the window and of every block.  A buffer is kept for the frames that follow.
-/

/-- The buffers of a decoder. -/
structure Buffers where
  /-- The size of the buffer for blocks that arrive in parts. -/
  input : Nat := 0
  /-- The size of the buffer for what is produced. -/
  output : Nat := 0
  /-- The number of frames in a row for which the buffers were much too large. -/
  oversized : Nat := 0
  /-- The buffers for frames of an earlier edition. -/
  earlier : Option Edition.Buffers := none

namespace Buffers

/-- How often a buffer has to be as large as needed to be much too large. -/
def excess : Nat := 3

/-- The number of frames for which a decoder keeps buffers that are much too large. -/
def patience : Nat := 128

/-- Provides buffers of at least the given sizes.  New ones are made if one is too small, or if they have
been much too large for long. -/
def provide (b : Buffers) (input output : Nat) : Buffers :=
  let oversized := if excess * (input + output) ≤ b.input + b.output then b.oversized + 1 else 0
  if b.input < input ∨ b.output < output ∨ patience ≤ oversized then { b with input, output, oversized }
  else { b with oversized }

end Buffers

namespace Frame

/-! ### The ways to decode a frame -/

/-- The size of the part of the contents that a decoder hands on together. -/
def handful : Nat := 8192

/-- How a frame is decoded. -/
structure Plan where
  header : Header
  /-- The size of the buffer. -/
  size : Nat
  /-- Whether the frame is decoded at once. -/
  atOnce : Bool

/-- The room for the next block of a frame. -/
def Plan.space (p : Plan) (o : Output) : Space :=
  { limit := p.header.blockLimit, room := p.size - o.used, atOnce := p.atOnce }

/-- Whether blocks up to the last one and then `tail` more bytes are in sight. -/
def isWhole (tail sight : Nat) (b : Bytes) : Bool :=
  match _head : Bytes.split? Block.Header.length b with
  | none => false
  | some (raw, afterHeader) =>
    match Block.Header.ofBytes raw with
    | .error _ => false
    | .ok header =>
      match _body : Bytes.split? header.stored afterHeader with
      | none => false
      | some (_, rest) =>
        let length := Block.Header.length + header.stored
        if sight < length then false
        else if header.last then length + tail ≤ sight && (Bytes.split? tail rest).isSome
        else isWhole tail (sight - length) rest
termination_by b.length
decreasing_by
  obtain ⟨rfl, h1⟩ := Bytes.eq_append_of_split? _head
  obtain ⟨rfl, _⟩ := Bytes.eq_append_of_split? _body
  simp only [Block.Header.length] at h1
  simp only [List.length_append]
  omega

/-- The number of bytes of a checksum. -/
def checksumLength : Nat := 4

/-- Whether a frame is decoded at once: if its contents are known to be few, and all of it is in sight.
The header of the frame is between the two sources. -/
def isAtOnce (header : Header) (front s : Source) : Bool :=
  header.contentSize.any (· ≤ handful) &&
    let length := s.taken - front.taken
    length ≤ front.sight &&
      isWhole (if header.checksum then checksumLength else 0) (front.sight - length) s.rest

/-- The size of the buffer for the contents of a frame: room for the window and two blocks, but not for
more than is declared. -/
def outputSize (window blockLimit : Nat) (contentSize : Option Nat) : Nat :=
  let size := window + 2 * min (min window Literals.blockLimit) blockLimit + 2 * Place.gap
  (contentSize.map (min size)).getD size

/-- The smallest size of the buffer for blocks. -/
def leastInput : Nat := 4

/-- Decides how to decode a frame, whose header is between the two sources, and provides the buffers for
it. -/
def plan (buffers : Buffers) (header : Header) (front s : Source) : Except Fault (Plan × Buffers) :=
  let atOnce := isAtOnce header front s
  let window := max header.window leastWindow
  if header.dictionary then .error .dictionaryMismatch
  else if atOnce then .ok (⟨header, handful, true⟩, buffers)
  else if windowLimit < window then .error .windowTooLarge
  else
    let buffers := buffers.provide (max header.blockLimit leastInput)
      (outputSize window header.blockLimit header.contentSize)
    .ok (⟨header, buffers.output, false⟩, buffers)

/-! ### Blocks -/

/-- Hands on what has been put into the buffer, if anything has, and so makes room for the next block. -/
def settle (p : Plan) (start : Nat) : History → History
  | ⟨output, code, tables, recent⟩ =>
    if output.content.size = start then ⟨output, code, tables, recent⟩
    else ⟨output.settle p.size p.header.blockLimit p.header.contentSize, code, tables, recent⟩

/-- Decodes `n` bytes that are stored as they are, as soon as they are in sight. -/
def readRaw (p : Plan) (n : Nat) (s : Source) (h : History) : Except Fault (History × Source) :=
  if n = 0 then .ok (h, s)
  else
    match s.takeInSight n with
    | (piece, rest) =>
      if _some : piece.length = 0 then .error .incomplete
      else
        let start := h.output.content.size
        match Block.append (p.space h.output) piece.toArray h with
        | .error e => .error e
        | .ok h => readRaw p (n - piece.length) rest (settle p start h)
termination_by n
decreasing_by omega

/-- Decodes the contents of a block that is stored as a run or is compressed. -/
def readBlock (p : Plan) (header : Block.Header) (s : Source) (h : History) :
    Except Fault (History × Source) :=
  match s.take header.stored with
  | .error e => .error e
  | .ok (stored, s) =>
    let start := h.output.content.size
    match Block.decode (p.space h.output) header stored h with
    | .error e => .error e
    | .ok h =>
      if ! p.atOnce ∧ p.header.blockLimit < h.output.content.size - start then .error .corrupted
      else .ok (settle p start h, s)

theorem readRaw_length {p : Plan} {n : Nat} {s rest : Source} {h after : History}
    (hr : readRaw p n s h = .ok (after, rest)) : rest.rest.length ≤ s.rest.length := by
  fun_induction readRaw p n s h with
  | case1 => cases hr; omega
  | case2 => cases hr
  | case3 => cases hr
  | case4 n s h _ piece mid hp _ _ h' _ ih =>
    have := Source.takeInSight_length n s
    rw [hp] at this
    have := ih hr
    simp only at *
    omega

theorem readBlock_length {p : Plan} {header : Block.Header} {s rest : Source} {h after : History}
    (hr : readBlock p header s h = .ok (after, rest)) : rest.rest.length ≤ s.rest.length := by
  unfold readBlock at hr
  split at hr
  · cases hr
  · rename_i hs
    have := Source.take_length hs
    simp only at hr
    split at hr
    · cases hr
    · split at hr
      · cases hr
      · cases hr
        omega

/-- Whether a block is passed over: a frame that is not decoded at once can have empty blocks of every
kind. -/
def Plan.skips (p : Plan) (header : Block.Header) : Bool := header.stored = 0 && ! p.atOnce

/-- Decodes what follows the header of a block. -/
def readContents (p : Plan) (header : Block.Header) (s : Source) (h : History) :
    Except Fault (History × Source) :=
  if ! p.atOnce ∧ p.header.blockLimit < header.stored then .error .corrupted
  else if p.skips header then .ok (h, s)
  else if header.kind = .raw then readRaw p header.stored s h
  else readBlock p header s h

theorem readContents_length {p : Plan} {header : Block.Header} {s rest : Source} {h after : History}
    (hr : readContents p header s h = .ok (after, rest)) : rest.rest.length ≤ s.rest.length := by
  unfold readContents at hr
  split at hr
  · cases hr
  · split at hr
    · cases hr; omega
    · split at hr
      · exact readRaw_length hr
      · exact readBlock_length hr

/-- Decodes blocks up to the last one.  Unless that one is passed over, the contents must have the
declared size. -/
def blocks (p : Plan) (s : Source) (h : History) : Except Fault (History × Source) :=
  match _head : s.take Block.Header.length with
  | .error e => .error e
  | .ok (raw, afterHeader) =>
    match Block.Header.ofBytes raw with
    | .error e => .error e
    | .ok header =>
      match _body : readContents p header afterHeader h with
      | .error e => .error e
      | .ok (h, rest) =>
        if ! header.last then blocks p rest h
        else if ! p.skips header ∧ p.header.contentSize.any (· ≠ h.output.content.size) then
          .error .corrupted
        else .ok (h, rest)
termination_by s.rest.length
decreasing_by
  have h1 := Source.take_length _head
  have h2 := readContents_length _body
  simp only [Block.Header.length] at h1
  omega

theorem blocks_length {p : Plan} {s rest : Source} {h after : History}
    (hb : blocks p s h = .ok (after, rest)) : rest.rest.length ≤ s.rest.length := by
  fun_induction blocks p s h with
  | case1 => cases hb
  | case2 => cases hb
  | case3 => cases hb
  | case4 s h raw mid head header _ h' rest' body _ ih =>
    have h1 := Source.take_length head
    have h2 := readContents_length body
    have := ih hb
    omega
  | case5 => cases hb
  | case6 s h raw mid head header _ h' rest' body _ _ =>
    cases hb
    have h1 := Source.take_length head
    have h2 := readContents_length body
    omega

/-! ### Whole frames -/

/-- Checks the contents of a frame against the checksum behind them, if there is one. -/
def readChecksum (header : Header) (content : Bytes) (s : Source) : Except Fault Source :=
  if header.checksum then
    match s.take checksumLength with
    | .error e => .error e
    | .ok (sum, rest) =>
      if sum = Checksum.ofContent content then .ok rest else .error .checksumMismatch
  else .ok s

theorem readChecksum_length {header : Header} {content : Bytes} {s rest : Source}
    (h : readChecksum header content s = .ok rest) : rest.rest.length ≤ s.rest.length := by
  unfold readChecksum at h
  split at h
  · split at h
    · cases h
    · rename_i hs
      have := Source.take_length hs
      split at h
      · cases h; omega
      · cases h
  · cases h; omega

/-- Decodes a frame whose magic number is between the two sources. -/
def decodeContents (buffers : Buffers) (front s : Source) :
    Except Fault (Bytes × Buffers × Source) := do
  let (header, s) ← Header.read s
  let (p, buffers) ← plan buffers header front s
  let (history, s) ← blocks p s {}
  let content := history.output.content.toList
  let s ← readChecksum header content s
  pure (content, buffers, s)

theorem decodeContents_length {buffers after : Buffers} {front s rest : Source} {content : Bytes}
    (h : decodeContents buffers front s = .ok (content, after, rest)) :
    rest.rest.length < s.rest.length := by
  simp only [decodeContents, bind, Except.bind, pure, Except.pure] at h
  split at h
  · cases h
  rename_i r1 h1
  split at h
  · cases h
  split at h
  · cases h
  rename_i r3 h3
  split at h
  · cases h
  rename_i r4 h4
  cases h
  have h1 := Header.read_length h1
  have h3 := blocks_length h3
  have h4 := readChecksum_length h4
  omega

/-- Passes over a skippable frame, from behind its magic number on.  It is passed through the buffers like
any other. -/
def skip (buffers : Buffers) (s : Source) : Except Fault (Bytes × Buffers × Source) := do
  let (size, s) ← s.take 4
  let size := Bytes.toNatLE size
  let (_, s) ← s.take size
  pure ([], buffers.provide leastInput (outputSize leastWindow 0 (some size)), s)

theorem skip_length {buffers after : Buffers} {s rest : Source} {content : Bytes}
    (h : skip buffers s = .ok (content, after, rest)) : rest.rest.length < s.rest.length := by
  simp only [skip, bind, Except.bind, pure, Except.pure] at h
  split at h
  · cases h
  rename_i r1 h1
  split at h
  · cases h
  rename_i r2 h2
  cases h
  have h1 := Source.take_length h1
  have h2 := Source.take_length h2
  omega

/-- The source behind the magic number at its front. -/
def behindMagic (s : Source) : Source := ⟨s.rest.drop magic.length, s.taken + magic.length⟩

/-- Decodes the frame at the front of a source. -/
def decode (buffers : Buffers) (s : Source) : Except Fault (Bytes × Buffers × Source) :=
  match start s with
  | .contents => decodeContents buffers s (behindMagic s)
  | .skippable => skip buffers (behindMagic s)
  | .earlier e => do
    let (content, earlier, s) ← e.decode buffers.earlier (behindMagic s)
    pure (content, { buffers with earlier := some earlier }, s)
  | .outdated => .error .unsupportedVersion
  | .short => .error .incomplete
  | .unknown => .error .unknownMagic

/-- A frame takes at least one byte. -/
theorem decode_length {buffers after : Buffers} {s rest : Source} {content : Bytes}
    (h : decode buffers s = .ok (content, after, rest)) : rest.rest.length < s.rest.length := by
  unfold decode at h
  split at h
  · have := decodeContents_length h
    simp only [behindMagic, List.length_drop] at this
    omega
  · have := skip_length h
    simp only [behindMagic, List.length_drop] at this
    omega
  · simp only [bind, Except.bind, pure, Except.pure] at h
    split at h
    · cases h
    rename_i hs
    cases h
    have := Edition.decode_length hs
    simp only [behindMagic, List.length_drop] at this
    omega
  · cases h
  · cases h
  · cases h

end Frame

/-- The contents of the frames of a source. -/
def decodeAll (buffers : Buffers) (s : Source) : Except Fault Bytes :=
  if s.rest.isEmpty then .ok []
  else
    match _frame : Frame.decode buffers s with
    | .error e => .error e
    | .ok (content, buffers, rest) => (decodeAll buffers rest).map (content ++ ·)
termination_by s.rest.length
decreasing_by exact Frame.decode_length _frame

/-- The contents of a sequence of at least one frame. -/
def decompress (b : Bytes) : Except Fault Bytes :=
  if b.isEmpty then .error .incomplete else decodeAll {} { rest := b }

end SnapStore.Zstandard
