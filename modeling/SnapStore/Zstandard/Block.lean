import SnapStore.Bytes
import SnapStore.Zstandard.Output
import SnapStore.Zstandard.Sequences

namespace SnapStore.Zstandard

/-!
# Blocks

The contents of a frame come in blocks: stored as they are, stored as one repeated byte, or
compressed.  What a compressed block copies may lie in an earlier block of its frame.

* `Block.Header` is what stands in front of a block.
* `History` is what the blocks of a frame leave for those after them.
* `Block.decode` appends the contents of a block.
-/

/-- What the blocks of a frame leave for those after them. -/
structure History where
  output : Output := {}
  code : Option PrefixCode := none
  tables : Option Tables := none
  recent : Recent := {}

/-- How a block is stored. -/
inductive BlockKind
  | /-- As it is. -/ raw
  | /-- As one byte. -/ run
  | /-- As literals and sequences. -/ compressed
  deriving DecidableEq, Repr

namespace Block

/-! ### Headers -/

/-- What stands in front of a block. -/
structure Header where
  last : Bool
  kind : BlockKind
  /-- The number of bytes that follow; of a run, the number that it stands for. -/
  size : Nat

/-- The number of bytes of a block header. -/
def Header.length : Nat := 3

/-- Reads a block header from its bytes. -/
def Header.ofBytes (b : Bytes) : Except Fault Header :=
  let n := Bytes.toNatLE b
  let last := n % 2 = 1
  let size := n / 8
  match n / 2 % 4 with
  | 0 => .ok ⟨last, .raw, size⟩
  | 1 => .ok ⟨last, .run, size⟩
  | 2 => .ok ⟨last, .compressed, size⟩
  | _ => .error .corrupted

/-- The bytes of a block header. -/
def Header.toBytes (h : Header) : Bytes :=
  let kind := match h.kind with
    | .raw => 0
    | .run => 1
    | .compressed => 2
  Bytes.ofNatLE Header.length ((if h.last then 1 else 0) + 2 * kind + 8 * h.size)

/-- The number of bytes that follow the header. -/
def Header.stored (h : Header) : Nat := if h.kind = .run then 1 else h.size

/-! ### Contents -/

/-- Appends the literals that no sequence takes, from the one with the number `taken` on; `start` is where
the contents of the block begin. -/
def finish (space : Space) (l : Literals) (start taken : Nat) (o : Output) : Except Fault Output :=
  if l.place.room space + taken < o.content.size - start + l.bytes.size then .error .outputTooSmall
  else .ok (o.append (l.bytes.extract taken l.bytes.size))

/-- Reads and carries out `n` sequences on literals, of which the first `taken` are used up.  Their
stream must hold no more and no less. -/
def execute (space : Space) (l : Literals) (t : Tables) (start : Nat) :
    Nat → Cursor → Nat → Output → Except Fault (Output × Recent)
  | 0, c, taken, o =>
    if c.bits.isDone then (finish space l start taken o).map (·, c.recent) else .error .corrupted
  | n + 1, c, taken, o =>
    let (q, c) := t.next (n = 0) c
    let produced := o.content.size - start
    if l.place.room space < produced + q.literals + q.length then .error .outputTooSmall
    else if l.bytes.size < taken + q.literals then .error .corrupted
    else if l.place.isLost space l.bytes.size taken q.literals produced then .error .outputTooSmall
    else
      let o := o.append (l.bytes.extract taken (taken + q.literals))
      if o.canReach q.distance then
        execute space l t start n c (taken + q.literals) (o.copy q.distance q.length)
      else .error .corrupted

/-- Decodes a compressed block. -/
def decompress (space : Space) (data : Array UInt8) : History → Except Fault History
  | ⟨output, code, tables, recent⟩ => do
    if space.limit < data.size then throw .wrongSize
    let l ← Literals.read space code data
    let s ← Sequences.read tables data l.size
    let start := output.content.size
    if s.count = 0 then
      let output ← finish space l start 0 output
      pure ⟨output, l.code, tables, recent⟩
    else if space.room = 0 then throw .outputTooSmall
    else
      match s.tables, Backward.open? data s.start data.size with
      | some t, some bits =>
        let (output, recent) ← execute space l t start s.count (t.enter recent bits) 0 output
        pure ⟨output, l.code, s.tables, recent⟩
      | _, _ => throw .corrupted

/-- Puts the bytes of a block that is not compressed behind the contents. -/
def append (space : Space) (bytes : Array UInt8) : History → Except Fault History
  | ⟨output, code, tables, recent⟩ =>
    if space.room < bytes.size then .error .outputTooSmall
    else .ok ⟨output.append bytes, code, tables, recent⟩

/-- Decodes a block, given the bytes that follow its header. -/
def decode (space : Space) (header : Header) (b : Bytes) (h : History) : Except Fault History :=
  match header.kind with
  | .raw => append space b.toArray h
  | .run => append space (Array.replicate header.size (b.headD 0)) h
  | .compressed => decompress space b.toArray h

end Block

end SnapStore.Zstandard
