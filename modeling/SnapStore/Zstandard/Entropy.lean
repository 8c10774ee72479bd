import SnapStore.Zstandard.Bits

namespace SnapStore.Zstandard

/-!
# State-machine codes

A finite-state code has `2 ^ log` states.  Each state stands for a symbol and says how many bits to
read and what to add to them to get the next state.

* `Distribution` gives each symbol its share of the states; `Distribution.read` reads one from the
  front of a byte string.
* `StateTable.ofDistribution` spreads the symbols over the states.
* `StateTable.constant` is the one-state code of a single symbol.
-/

/-- The share of the states that each symbol has; `-1` marks a symbol rarer than one state. -/
structure Distribution where
  /-- The binary logarithm of the number of states. -/
  log : Nat
  /-- The share of each symbol, from symbol zero on. -/
  shares : List Int

namespace Distribution

/-- A place in a distribution that is being read forwards: bytes are seen four at a time, from `byte`
on, and `bit` bits of these are past. -/
structure Cursor where
  byte : Nat
  bit : Nat

namespace Cursor

/-- The bits that are in sight, the next one lowest. -/
def bits (c : Cursor) (data : Array UInt8) : Nat := word data c.byte 4 / Nat.pow 2 c.bit

/-- Moves on by `n` bits. -/
def skip (c : Cursor) (n : Nat) : Cursor := { c with bit := c.bit + n }

/-- Brings the byte with the next bit to the front, but no byte beyond the end in sight.  Who is there
already goes round in the last four bytes. -/
def refill (c : Cursor) (size : Nat) : Cursor :=
  if c.byte + 7 ≤ size ∨ c.byte + c.bit / 8 + 4 ≤ size then ⟨c.byte + c.bit / 8, c.bit % 8⟩
  else ⟨size - 4, (c.bit - 8 * (size - 4 - c.byte)) % 32⟩

/-- Moves on by three bytes, if there are as many. -/
def skipThree (c : Cursor) (size : Nat) : Cursor :=
  if c.byte + 7 ≤ size then { c with byte := c.byte + 3 }
  else ⟨size - 4, (c.bit + 8 * (c.byte + 7 - size)) % 32⟩

end Cursor

/-- The number of times that the number 3 stands at the low end of a number, in pairs of bits. -/
def threes : Nat → Nat → Nat
  | 0, _ => 0
  | fuel + 1, bits => if bits % 4 = 3 then threes fuel (bits / 4) + 1 else 0

/-- After a symbol without states, runs of three further such symbols are marked by the number 3,
and the last, shorter run by its length.  The result is the number of those symbols. -/
def zeroRun (data : Array UInt8) : Nat → Cursor → Nat → Nat × Cursor
  | 0, c, n => (n, c)
  | fuel + 1, c, n =>
    let runs := threes 16 (c.bits data)
    if 12 ≤ runs then zeroRun data fuel (c.skipThree data.size) (n + 36)
    else
      let c := c.skip (2 * runs)
      (n + 3 * runs + c.bits data % 4, c.skip 2)

/-- Reads shares until the states are used up.  `remaining` is one more than the number of states
not yet given away, `done` the shares so far, last one first, of at most `limit`. -/
def readShares (limit : Nat) (data : Array UInt8) :
    Nat → Cursor → Nat → List Int → Option (List Int × Cursor)
  | 0, _, _, _ => none
  | fuel + 1, c, remaining, done =>
    -- A share from 0 to `remaining` takes as many bits as `remaining` has; the spare patterns go
    -- to the small shares, which take one bit less.
    let width := Nat.log2 remaining + 1
    let half := Nat.pow 2 (width - 1)
    let spare := 2 * half - 1 - remaining
    let short := c.bits data % half
    let long := c.bits data % (2 * half)
    let (code, used) :=
      if short < spare then (short, width - 1)
      else (if long < half then long else long - spare, width)
    let share : Int := (code : Int) - 1
    let remaining := remaining - share.natAbs
    let done := share :: done
    let c := c.skip used
    if remaining ≤ 1 then some (done.reverse, c)
    else if limit ≤ done.length then none
    else
      let c := c.refill data.size
      if share = 0 then
        let (run, c) := zeroRun data (data.size + 1) c 0
        if limit ≤ done.length + run then none
        else readShares limit data fuel (c.refill data.size) remaining (List.replicate run 0 ++ done)
      else readShares limit data fuel c remaining done

/-- The number of states that a distribution can share out at most, as a binary logarithm. -/
def logLimit : Nat := 15

/-- Reads a distribution over at most `limit` symbols from the front of a byte array of at least eight
bytes, and tells how many bytes it takes. -/
def readLong (limit : Nat) (data : Array UInt8) : Except Fault (Distribution × Nat) :=
  let log := word data 0 1 % 16 + 5
  if logLimit < log then .error .corrupted
  else
    match readShares limit data limit ⟨0, 4⟩ (Nat.pow 2 log + 1) [] with
    | some (shares, c) =>
      if 32 < c.bit then .error .corrupted else .ok (⟨log, shares⟩, c.byte + (c.bit + 7) / 8)
    | none => .error .corrupted

/-- Reads a distribution over at most `limit` symbols from the front of a byte array, and tells how many
bytes it takes.  A shorter array is filled up with zeros. -/
def read (limit : Nat) (data : Array UInt8) : Except Fault (Distribution × Nat) :=
  if data.size < 8 then do
    let (d, n) ← readLong limit (data ++ Array.replicate (8 - data.size) 0)
    if data.size < n then throw .corrupted
    pure (d, n)
  else readLong limit data

end Distribution

/-- What a state stands for. -/
structure StateCell where
  symbol : Nat
  /-- The number of bits that the next state is read from. -/
  bits : Nat
  /-- What is added to them. -/
  base : Nat
  deriving Inhabited

/-- The states of a code. -/
structure StateTable where
  /-- The number of bits that the first state is read from. -/
  log : Nat
  cells : Array StateCell

namespace StateTable

/-- The code in which everything is one symbol. -/
def constant (symbol : Nat) : StateTable := ⟨0, #[⟨symbol, 0, 0⟩]⟩

/-- The symbol of each state.  Rare symbols take the last states; the states before them are handed
out in steps that visit every state once. -/
def spread (d : Distribution) : Array Nat :=
  let size := Nat.pow 2 d.log
  let symbols := d.shares.zipIdx
  let rare := symbols.filterMap fun (share, s) => if share = -1 then some s else none
  let common := symbols.flatMap fun (share, s) => List.replicate share.toNat s
  let step := size / 2 + size / 8 + 3
  let places := ((List.range size).map (· * step % size)).filter (· < size - rare.length)
  let late := (List.range rare.length).map (size - 1 - ·)
  ((late.zip rare) ++ (places.zip common)).foldl
    (fun cells (place, s) => cells.setIfInBounds place s) (Array.replicate size 0)

/-- The code of a distribution.  The states of a symbol share the numbers from its share up to twice
its share: each number, shifted until it fills the table, is where its next state starts. -/
def ofDistribution (d : Distribution) : StateTable :=
  let shares := (d.shares.map Int.natAbs).toArray
  let step (acc : Array Nat × Array StateCell) (s : Nat) : Array Nat × Array StateCell :=
    let next := acc.1.getD s 1
    let bits := d.log - Nat.log2 next
    (acc.1.setIfInBounds s (next + 1), acc.2.push ⟨s, bits, next * Nat.pow 2 bits - Nat.pow 2 d.log⟩)
  ⟨d.log, ((spread d).foldl step (shares, #[])).2⟩

/-- The first state, read from a stream. -/
def start (t : StateTable) (b : Backward) : Nat × Backward := b.readWhole t.log

/-- What a state stands for. -/
def cell (t : StateTable) (state : Nat) : StateCell := t.cells.getD state ⟨0, 0, 0⟩

/-- The state after a state. -/
def next (t : StateTable) (state : Nat) (b : Backward) : Nat × Backward :=
  let cell := t.cell state
  let (n, b) := b.readWhole cell.bits
  (cell.base + n, b)

end StateTable

end SnapStore.Zstandard
