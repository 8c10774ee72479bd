import SnapStore.Zstandard.Literals

namespace SnapStore.Zstandard

/-!
# The sequences of a compressed block

A sequence says: take so many literals, then copy so many bytes from so far back.  The three numbers
are sent as codes, each a base and a number of further bits, in one backward stream with three
finite-state codes.

* `Slot` holds the rules of one of the three numbers, `Slot.literalLength`, `Slot.offset` and
  `Slot.matchLength` those of each.
* `Recent` are the three last distances, which short offset codes refer to.
* `Sequences.read` reads how many sequences there are, and their codes.
* `Tables.next` reads a sequence, with its distance resolved.
-/

/-- A code that is sent as a number in a range: the base and the number of bits of each symbol. -/
abbrev Ranges := Array (Nat × Nat)

/-- What is fixed about the code of one of the three numbers. -/
structure Slot where
  /-- The binary logarithm of the largest number of states. -/
  maxLog : Nat
  /-- The distribution that needs not be sent. -/
  usual : Distribution
  ranges : Ranges

namespace Slot

/-- The symbols up to `plain` are the numbers from `first` on; each later one takes up where the one
before ends. -/
def rangesFrom (first plain : Nat) (bits : List Nat) : Ranges :=
  let early := (List.range plain).map fun s => (first + s, 0)
  let late := bits.zipIdx.map fun (width, i) =>
    (first + plain + ((bits.take i).map (Nat.pow 2)).foldl (· + ·) 0, width)
  (early ++ late).toArray

/-- How many literals a sequence takes. -/
def literalLength : Slot where
  maxLog := 9
  usual := ⟨6, [4, 3, 2, 2, 2, 2, 2, 2, 2, 2, 2, 2, 2, 1, 1, 1, 2, 2, 2, 2, 2, 2, 2, 2, 2, 3, 2, 1,
    1, 1, 1, 1, -1, -1, -1, -1]⟩
  ranges := rangesFrom 0 16 [1, 1, 1, 1, 2, 2, 3, 3, 4, 6, 7, 8, 9, 10, 11, 12, 13, 14, 15, 16]

/-- How far back a sequence copies from. -/
def offset : Slot where
  maxLog := 8
  usual := ⟨5, [1, 1, 1, 1, 1, 1, 2, 2, 2, 1, 1, 1, 1, 1, 1, 1, 1, 1, 1, 1, 1, 1, 1, 1, -1, -1, -1,
    -1, -1]⟩
  ranges := ((List.range 32).map fun s => (Nat.pow 2 s, s)).toArray

/-- How many bytes a sequence copies. -/
def matchLength : Slot where
  maxLog := 9
  usual := ⟨6, [1, 4, 3, 2, 2, 2, 2, 2, 2, 1, 1, 1, 1, 1, 1, 1, 1, 1, 1, 1, 1, 1, 1, 1, 1, 1, 1, 1,
    1, 1, 1, 1, 1, 1, 1, 1, 1, 1, 1, 1, 1, 1, 1, 1, 1, 1, -1, -1, -1, -1, -1, -1, -1]⟩
  ranges := rangesFrom 3 32 [1, 1, 1, 1, 2, 2, 3, 3, 4, 4, 5, 7, 8, 9, 10, 11, 12, 13, 14, 15, 16]

/-- Reads the code of a number, from a place in a byte array on: the usual one, one symbol only, one
that is sent, or the one of an earlier block.  The result is the code and the place behind it. -/
def readTable (slot : Slot) (mode : Nat) (earlier : Option StateTable) (data : Array UInt8) (i : Nat) :
    Except Fault (StateTable × Nat) :=
  match mode with
  | 0 => .ok (.ofDistribution slot.usual, i)
  | 1 =>
    match data[i]? with
    | none => .error .corrupted
    | some x =>
      if x.toNat < slot.ranges.size then .ok (.constant x.toNat, i + 1) else .error .corrupted
  | 2 => do
    let (d, n) ← Distribution.read slot.ranges.size (data.extract i data.size)
    if slot.maxLog < d.log then throw .corrupted
    pure (.ofDistribution d, i + n)
  | _ =>
    match earlier with
    | some t => .ok (t, i)
    | none => .error .corrupted

/-- Reads the number that the state of a code stands for. -/
def readNumber (slot : Slot) (t : StateTable) (state : Nat) (bits : Backward) : Nat × Backward :=
  let (base, width) := slot.ranges.getD (t.cell state).symbol (0, 0)
  let (extra, bits) := bits.read width
  (base + extra, bits)

end Slot

/-- The codes of the three numbers. -/
structure Tables where
  literalLength : StateTable
  offset : StateTable
  matchLength : StateTable

/-- The last three distances, latest first. -/
structure Recent where
  first : Nat := 1
  second : Nat := 4
  third : Nat := 8

/-- The distance that an offset number stands for.  The numbers 1 to 3 are recent distances; without
literals in front the latest one is left out, and one less than it takes the last place.  The
distance becomes the latest one. -/
def Recent.resolve (r : Recent) (number literals : Nat) : Nat × Recent :=
  let use := if literals = 0 then number + 1 else number
  if 3 < number then (number - 3, ⟨number - 3, r.first, r.second⟩)
  else match use with
    | 1 => (r.first, r)
    | 2 => (r.second, ⟨r.second, r.first, r.third⟩)
    | 3 => (r.third, ⟨r.third, r.first, r.second⟩)
    | _ => (r.first - 1, ⟨r.first - 1, r.first, r.second⟩)

/-- Take `literals` literals, then copy `length` bytes from `distance` back. -/
structure Sequence where
  literals : Nat
  distance : Nat
  length : Nat

/-- A place among the sequences of a block. -/
structure Cursor where
  /-- The state of the code of the number of literals. -/
  literalLength : Nat
  /-- The state of the code of the distance. -/
  offset : Nat
  /-- The state of the code of the number of bytes to copy. -/
  matchLength : Nat
  recent : Recent
  bits : Backward

namespace Tables

/-- The place before the first sequence of a stream. -/
def enter (t : Tables) (recent : Recent) (bits : Backward) : Cursor :=
  let (literalLength, bits) := t.literalLength.start bits
  let (offset, bits) := t.offset.start bits
  let (matchLength, bits) := t.matchLength.start bits
  { literalLength, offset, matchLength, recent, bits }

/-- Reads a sequence; no states follow the last one. -/
def next (t : Tables) (last : Bool) (c : Cursor) : Sequence × Cursor :=
  let (number, bits) := Slot.offset.readNumber t.offset c.offset c.bits
  let (length, bits) := Slot.matchLength.readNumber t.matchLength c.matchLength bits
  let (literals, bits) := Slot.literalLength.readNumber t.literalLength c.literalLength bits
  let (distance, recent) := c.recent.resolve number literals
  if last then (⟨literals, distance, length⟩, { c with recent, bits })
  else
    let (l, bits) := t.literalLength.next c.literalLength bits
    let (m, bits) := t.matchLength.next c.matchLength bits
    let (o, bits) := t.offset.next c.offset bits
    (⟨literals, distance, length⟩, ⟨l, o, m, recent, bits⟩)

end Tables

/-- The sequences of a block before they are read. -/
structure Sequences where
  count : Nat
  /-- Their codes, or else those that a later block can refer to. -/
  tables : Option Tables
  /-- Where their stream begins. -/
  start : Nat

namespace Sequences

/-- Reads the number of sequences, from a place in a byte array on, and the place behind it. -/
def readCount (data : Array UInt8) (i : Nat) : Except Fault (Nat × Nat) :=
  match data[i]?, data[i + 1]?, data[i + 2]? with
  | none, _, _ => .error .wrongSize
  | some x, y?, z? =>
    if x < 128 then .ok (x.toNat, i + 1)
    else if x < 255 then
      match y? with
      | some y => .ok ((x.toNat - 128) * 256 + y.toNat, i + 2)
      | none => .error .wrongSize
    else
      match y?, z? with
      | some y, some z => .ok (y.toNat + z.toNat * 256 + 0x7F00, i + 3)
      | _, _ => .error .wrongSize

/-- Reads everything in front of the stream of sequences, from a place in a byte array on. -/
def read (earlier : Option Tables) (data : Array UInt8) (i : Nat) : Except Fault Sequences := do
  let (count, i) ← readCount data i
  if count = 0 then
    if i = data.size then pure ⟨0, earlier, i⟩ else throw .corrupted
  else
    match data[i]? with
    | none => throw .wrongSize
    | some modes =>
      let modes := modes.toNat
      if modes % 4 ≠ 0 then throw .corrupted
      let (literalLength, i) ←
        Slot.literalLength.readTable (modes / 64) (earlier.map (·.literalLength)) data (i + 1)
      let (offset, i) ← Slot.offset.readTable (modes / 16 % 4) (earlier.map (·.offset)) data i
      let (matchLength, i) ←
        Slot.matchLength.readTable (modes / 4 % 4) (earlier.map (·.matchLength)) data i
      pure ⟨count, some ⟨literalLength, offset, matchLength⟩, i⟩

end Sequences

end SnapStore.Zstandard
