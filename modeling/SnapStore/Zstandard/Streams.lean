import SnapStore.Zstandard.Huffman

namespace SnapStore.Zstandard

/-!
# Literals in one stream and in four

Coded literals are one backward stream, or four of them, the first three of which have their sizes in
front.  Each of the four holds a quarter of the literals, rounded up, and the last one what is left.

* `PrefixCode.decodeOne` decodes one stream.
* `PrefixCode.decodeFour` decodes four.
* `PrefixCode.prefersPairs` says when a code for four streams is used two values at a time.

A stream must end with its last literal.  Four long streams, however, are decoded side by side, five
steps at a time: then a stream may begin in the middle of another one as long as they keep their order,
and nobody looks where it ends.  `Lane` is a stream that is decoded in that way.
-/

namespace PrefixCode

/-- Decodes `n` bytes from a stream that holds nothing else. -/
def decodeOne (code : PrefixCode) (n : Nat) (data : Array UInt8) (start stop : Nat) :
    Except Fault (Array UInt8) :=
  match Backward.open? data start stop with
  | none => .error .corrupted
  | some b =>
    let (out, b) := code.decode n b #[]
    if b.isDone then .ok out else .error .corrupted

/-! ### Side by side -/

/-- One of four streams that are decoded side by side. -/
structure Lane where
  bits : Backward
  /-- Where the eight bytes begin that are in sight. -/
  front : Nat
  out : Array UInt8 := #[]
  /-- The number of bytes to decode. -/
  goal : Nat

namespace Lane

/-- The place before the marker of a stream.  The stream can be read on into everything that stands in
front of it, from `floor` on.  If its last byte has no marker, it begins behind that byte. -/
def enter (data : Array UInt8) (floor stop goal : Nat) : Lane :=
  let last := (data.getD (stop - 1) 0).toNat
  let unread := if last = 0 then 8 else Nat.log2 last
  { bits := { data, start := floor, stop, left := (8 * (stop - 1 - floor) + unread : Nat) }
    front := stop - 8, goal }

/-- Decodes what one cell stands for. -/
def lookup (code : PrefixCode) (l : Lane) : Lane :=
  let c := code.cell l.bits
  let out := l.out.push c.value
  { l with
    bits := l.bits.skip c.bits
    out := match c.second with
      | some x => out.push x
      | none => out }

/-- Brings the bytes in front of the place into sight. -/
def refill (l : Lane) : Lane :=
  { l with front := l.front - (8 * (l.front + 8) - (8 * l.bits.start + l.bits.left.toNat)) / 8 }

/-- One step: five cells. -/
def step (code : PrefixCode) (l : Lane) : Lane :=
  (lookup code (lookup code (lookup code (lookup code (lookup code l))))).refill

/-- The number of bytes still to decode. -/
def missing (l : Lane) : Nat := l.goal - l.out.size

/-- The rest of a stream, where `start` is the first byte that is really its own. -/
def finish (code : PrefixCode) (l : Lane) (start : Nat) : Except Fault (Array UInt8) :=
  if l.front + 8 < start then .error .corrupted
  else .ok (code.decode l.missing l.bits l.out).1

end Lane

/-- Whether no stream has overtaken the one in front of it. -/
def inOrder (lanes : List Lane) : Bool :=
  (lanes.zip (lanes.drop 1)).all fun (l, m) => l.front ≤ m.front

/-- The number of steps for which there is enough to read and enough to decode: a step reads up to
seven bytes, and decodes five values or pairs. -/
def safeSteps (code : PrefixCode) (lanes : List Lane) : Nat :=
  let input := (lanes.take 1).map fun l => (l.front - l.bits.start) / 7
  let output :=
    if code.paired then lanes.map fun l => l.missing / 10
    else (lanes.drop 3).map fun l => l.missing / 5
  ((input ++ output).min?).getD 0

/-- Takes up to so many steps, but none after the last stream has five bytes more for each of them. -/
def run (code : PrefixCode) (lanes : List Lane) : Nat → Nat → List Lane
  | 0, _ => lanes
  | n + 1, floor =>
    let missing := ((lanes.drop 3).map Lane.missing).foldl (· + ·) 0
    if missing ≤ floor then lanes else run code (lanes.map (Lane.step code)) n floor

/-- Takes steps as long as they are safe. -/
def runAll (code : PrefixCode) : Nat → List Lane → List Lane
  | 0, lanes => lanes
  | fuel + 1, lanes =>
    let n := safeSteps code lanes
    if n = 0 || ! inOrder lanes then lanes
    else
      let missing := ((lanes.drop 3).map Lane.missing).foldl (· + ·) 0
      runAll code fuel (run code lanes n (missing - 5 * n))

/-! ### Four streams -/

/-- The number of bytes that the sizes of the first three streams take. -/
def sizesLength : Nat := 6

/-- The size from which on a stream is decoded side by side with others. -/
def laneSize : Nat := 8

/-- Decodes `n` bytes from the four streams that a byte array from `start` on consists of. -/
def decodeFour (code : PrefixCode) (n : Nat) (data : Array UInt8) (start : Nat) :
    Except Fault (Array UInt8) := do
  if data.size < start + sizesLength + 4 then throw .corrupted
  let start1 := start + sizesLength
  let start2 := start1 + word data start 2
  let start3 := start2 + word data (start + 2) 2
  let start4 := start3 + word data (start + 4) 2
  if data.size < start4 then throw .corrupted
  let quarter := (n + 3) / 4
  if n < 3 * quarter then throw .corrupted
  let starts := [start1, start2, start3, start4]
  let stops := [start2, start3, start4, data.size]
  let goals := [quarter, quarter, quarter, n - 3 * quarter]
  let long := (starts.zip stops).all fun (i, j) => i + laneSize ≤ j
  let parts ←
    if code.log = usualLog && long && 3 * quarter < n then
      let lanes := (stops.zip goals).map fun (stop, goal) => Lane.enter data start stop goal
      ((runAll code n lanes).zip starts).mapM fun (l, i) => l.finish code i
    else
      ((starts.zip stops).zip goals).mapM fun ((i, j), goal) => code.decodeOne goal data i j
  pure (parts.foldl (· ++ ·) #[])

/-! ### One value or two at a time -/

/-- What a code costs: a fixed amount, and an amount for each 256 bytes that are decoded. -/
structure Cost where
  table : Nat
  rate : Nat

/-- The costs of decoding single values and of decoding pairs, by how well the literals are compressed,
in sixteenths. -/
def costs : List (Cost × Cost) :=
  [(⟨0, 0⟩, ⟨1, 1⟩), (⟨0, 0⟩, ⟨1, 1⟩), (⟨150, 216⟩, ⟨381, 119⟩), (⟨170, 205⟩, ⟨514, 112⟩),
    (⟨177, 199⟩, ⟨539, 110⟩), (⟨197, 194⟩, ⟨644, 107⟩), (⟨221, 192⟩, ⟨735, 107⟩),
    (⟨256, 189⟩, ⟨881, 106⟩), (⟨359, 188⟩, ⟨1167, 109⟩), (⟨582, 187⟩, ⟨1570, 114⟩),
    (⟨688, 187⟩, ⟨1712, 122⟩), (⟨825, 186⟩, ⟨1965, 136⟩), (⟨976, 185⟩, ⟨2131, 150⟩),
    (⟨1180, 186⟩, ⟨2070, 175⟩), (⟨1377, 185⟩, ⟨1731, 202⟩), (⟨1412, 185⟩, ⟨1695, 202⟩)]

/-- Whether pairs are worth their larger table, for `count` bytes that are coded, with their code, in
`size` bytes.  Pairs also take more memory, and have to be better by a little. -/
def prefersPairs (count size : Nat) : Bool :=
  let class16 := if count ≤ size then 15 else size * 16 / count
  let (single, pair) := costs.getD class16 (⟨0, 0⟩, ⟨0, 0⟩)
  let blocks := count / 256
  let cost := pair.table + pair.rate * blocks
  cost + cost / 32 < single.table + single.rate * blocks

end PrefixCode

end SnapStore.Zstandard
