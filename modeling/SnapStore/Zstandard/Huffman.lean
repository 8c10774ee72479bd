import SnapStore.Zstandard.Entropy

namespace SnapStore.Zstandard

/-!
# Prefix codes

Literals are coded with a prefix code that is sent as a weight per byte value: a value of weight
`w > 0` has a code of `maxBits + 1 - w` bits.  The weight of the last value follows from the others,
because the codes fill the code space.

* `PrefixCode.ofWeights` makes the code from the weights that were sent.
* `PrefixCode.readWeights` reads weights, either four bits each or as a finite-state code of two
  interleaved states.
* `PrefixCode.decode` decodes a number of bytes from a stream.

A code can be used one value at a time or, where two codes fit into a cell of its table, two values at
a time.
-/

/-- What a cell in the table of a prefix code stands for. -/
structure PrefixCell where
  value : UInt8
  /-- The value of the code behind the first one, if both are known from the index. -/
  second : Option UInt8 := none
  /-- The number of bits that the values take. -/
  bits : Nat
  deriving Inhabited

/-- A prefix code, as a table indexed by the next `log` bits. -/
structure PrefixCode where
  log : Nat
  cells : Array PrefixCell
  /-- Whether values are decoded in pairs. -/
  paired : Bool

namespace PrefixCode

/-- The largest number of bits in a code. -/
def bitLimit : Nat := 12

/-- The size of a table, as a binary logarithm, unless a code is longer. -/
def usualLog : Nat := 11

/-- The weights of all values, given those of the values `0, 1, …`: the next value has the weight that
fills the code space.  The number before them is the length of the longest code. -/
def completeWeights (weights : List Nat) : Option (Nat × List Nat) :=
  let total := (weights.map fun w => if w = 0 then 0 else Nat.pow 2 (w - 1)).foldl (· + ·) 0
  if weights.any (bitLimit < ·) || total == 0 then none
  else
    let maxBits := Nat.log2 total + 1
    let left := Nat.pow 2 maxBits - total
    if bitLimit < maxBits || Nat.pow 2 (Nat.log2 left) != left then none
    else
      let all := weights ++ [Nat.log2 left + 1]
      let lightest := (all.filter (· = 1)).length
      if lightest < 2 || lightest % 2 = 1 then none else some (maxBits, all)

/-- The cells of one value each: the longest codes come first. -/
def singleCells (log maxBits : Nat) (weights : List Nat) : Array PrefixCell :=
  let values := weights.zipIdx
  let cellsOf (w : Nat) : List PrefixCell :=
    values.flatMap fun (v, s) =>
      if v = w then
        List.replicate (Nat.pow 2 (w - 1 + (log - maxBits))) ⟨UInt8.ofNat s, none, maxBits + 1 - w⟩
      else []
  ((List.range maxBits).flatMap fun w => cellsOf (w + 1)).toArray

/-- A cell with the value that follows, if there is room for its code. -/
def pairCell (log : Nat) (cells : Array PrefixCell) (i : Nat) : PrefixCell :=
  let cell := cells.getD i default
  let next := cells.getD (i * Nat.pow 2 cell.bits % Nat.pow 2 log) default
  if cell.bits + next.bits ≤ log then ⟨cell.value, some next.value, cell.bits + next.bits⟩ else cell

/-- The code of given weights. -/
def ofWeights (paired : Bool) (weights : List Nat) : Option PrefixCode :=
  (completeWeights weights).map fun (maxBits, all) =>
    let log := max usualLog maxBits
    let cells := singleCells log maxBits all
    { log, paired
      cells := if paired then (Array.range (Nat.pow 2 log)).map (pairCell log cells) else cells }

/-! ### Reading weights -/

/-- Weights of four bits each, the first in the high half of a byte. -/
def directWeights (count : Nat) (data : Array UInt8) : List Nat :=
  (data.toList.flatMap fun x => [x.toNat / 16, x.toNat % 16]).take count

/-- Weights from a finite-state code: the two states take turns, and when there are not enough bits
for a state to go on, the other one gives the last weight. -/
def codedWeights (t : StateTable) : Nat → Nat → Nat → Backward → List Nat → Option (List Nat)
  | 0, _, _, _, _ => none
  | fuel + 1, state, other, bits, done =>
    let done := (t.cell state).symbol :: done
    let (state, bits) := t.next state bits
    if bits.left < 0 then some (((t.cell other).symbol :: done).reverse)
    else codedWeights t fuel other state bits done

/-- The largest number of weights that are sent. -/
def weightLimit : Nat := 255

/-- The largest number of states that weights are sent with, as a binary logarithm. -/
def weightLog : Nat := 6

/-- The room for the table of a distribution, in words of four bytes: the table itself, and what it
takes to make it. -/
def tableRoom (log symbols : Nat) : Nat :=
  1 + Nat.pow 2 log + (2 * symbols + Nat.pow 2 log + 8 + 3) / 4

/-- Whether there is room for the table of a distribution: enough for as many states as there can be,
and one symbol for each weight that a value can have without filling the code space alone. -/
def tableFits (d : Distribution) : Bool :=
  d.log ≤ weightLog && tableRoom d.log d.shares.length ≤ tableRoom weightLog bitLimit

/-- Reads weights in a finite-state code that fills the bytes. -/
def readCodedWeights (data : Array UInt8) : Except Fault (List Nat) := do
  let (d, n) ← Distribution.read (weightLimit + 1) data
  if ! tableFits d then throw .corrupted
  let t := StateTable.ofDistribution d
  match Backward.open? data n data.size with
  | none => throw .corrupted
  | some bits =>
    let (first, bits) := t.start bits
    let (second, bits) := t.start bits
    if bits.left < 0 then throw .corrupted
    match codedWeights t (weightLimit - 1) first second bits [] with
    | some ws => pure ws
    | none => throw .corrupted

/-- Reads weights from the front of a byte array, and tells how many bytes they take. -/
def readWeights (data : Array UInt8) : Except Fault (List Nat × Nat) := do
  match data[0]? with
  | none => throw .corrupted
  | some x =>
    let size := if x < 128 then x.toNat else (x.toNat - 126) / 2
    if data.size < size + 1 then throw .corrupted
    let raw := data.extract 1 (size + 1)
    let weights ← if x < 128 then readCodedWeights raw
      else pure (directWeights (x.toNat - 127) raw)
    pure (weights, size + 1)

/-! ### Decoding -/

/-- The cell of the next bits. -/
def cell (code : PrefixCode) (b : Backward) : PrefixCell := code.cells.getD (b.peek code.log) default

/-- Moves on behind the last value.  Where a cell has a second value nobody knows how many bits belong
to the first one alone; what is left of the stream counts as read if the cell reaches beyond it. -/
def skipLast (c : PrefixCell) (b : Backward) : Backward :=
  if c.second.isNone then b.skip c.bits
  else if b.left ≤ 0 then b
  else { b with left := max 0 (b.left - c.bits) }

/-- Decodes `n` bytes and puts them behind `out`. -/
def decode (code : PrefixCode) : Nat → Backward → Array UInt8 → Array UInt8 × Backward
  | 0, b, out => (out, b)
  | 1, b, out =>
    let c := code.cell b
    (out.push c.value, skipLast c b)
  | n + 2, b, out =>
    let c := code.cell b
    match c.second with
    | some x => decode code n (b.skip c.bits) ((out.push c.value).push x)
    | none => decode code (n + 1) (b.skip c.bits) (out.push c.value)

end PrefixCode

end SnapStore.Zstandard
