namespace SnapStore.Decimal

/-!
# Shortest decimals

A binary floating-point number stands for every real number that rounds to it.  Its shortest decimal
is the one with the fewest digits among those, the nearest one if there are several.

* `Binary` is a positive floating-point number `m · 2 ^ q`.
* `Binary.shortest` is the pair `(d, k)` of its shortest decimal `d · 10 ^ k`.

All comparisons are made on natural numbers: with `scale k`, both `10 ^ k` and a quarter of the last
binary place are whole.
-/

/-- A positive floating-point number `m · 2 ^ q`.  At the lower end of a binade the numbers below are
twice as close as those above. -/
structure Binary where
  m : Nat
  q : Int
  /-- Whether the next lower number is only half as far away as the next higher one. -/
  lowerHalf : Bool := false

namespace Binary

/-- The weights of one decimal unit `10 ^ k` and of a quarter of a binary unit. -/
def scale (x : Binary) (k : Int) : Nat × Nat :=
  (Nat.pow 10 k.toNat * Nat.pow 2 (2 - x.q).toNat, Nat.pow 2 (x.q - 2).toNat * Nat.pow 10 (-k).toNat)

/-- Whether `d · 10 ^ k` rounds to the number; the ends of the interval do if `m` is even. -/
def covers (x : Binary) (k : Int) (d : Nat) : Bool :=
  let (decimal, quarter) := x.scale k
  let low := (4 * x.m - (if x.lowerHalf then 1 else 2)) * quarter
  let high := (4 * x.m + 2) * quarter
  let v := d * decimal
  if x.m % 2 = 0 then low ≤ v && v ≤ high else low < v && v < high

/-- The multiple of `10 ^ k` that rounds to the number and is nearest to it, an even one if two are
equally near. -/
def nearest? (x : Binary) (k : Int) : Option Nat :=
  let (decimal, quarter) := x.scale k
  let v := 4 * x.m * quarter
  let below := v / decimal
  let above := below + 1
  match x.covers k below, x.covers k above with
  | false, false => none
  | true, false => some below
  | false, true => some above
  | true, true =>
    let down := v - below * decimal
    let up := above * decimal - v
    if down < up || (down == up && below % 2 == 0) then some below else some above

/-- Tries the grids of `10 ^ k` from a coarse one on. -/
def search (x : Binary) : Nat → Int → Nat × Int
  | 0, k => ((x.nearest? k).getD 0, k)
  | fuel + 1, k =>
    match x.nearest? k with
    | some d => (d, k)
    | none => search x fuel (k - 1)

/-- The shortest decimal of a number between `10 ^ -324` and `10 ^ 309`. -/
def shortest (x : Binary) : Nat × Int := search x 650 309

end Binary

/-- The sign, and the positive number that the bits of a finite double-precision number other than
zero stand for. -/
def binaryOfBits (bits : UInt64) : Bool × Binary :=
  let n := bits.toNat
  let fraction : Nat := n % Nat.pow 2 52
  let exponent : Nat := n / Nat.pow 2 52 % Nat.pow 2 11
  (n / Nat.pow 2 63 = 1,
    if exponent = 0 then { m := fraction, q := -1074 }
    else { m := fraction + Nat.pow 2 52, q := (exponent : Int) - 1075
           lowerHalf := fraction == 0 && 1 < exponent })

end SnapStore.Decimal
