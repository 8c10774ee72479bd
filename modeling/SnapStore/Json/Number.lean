import SnapStore.Json.Scan

namespace SnapStore.Json

/-!
# JSON numbers

A number without a fraction and an exponent is an integer, if it fits 64 bits, unsigned without a
sign and signed with one.  All other numbers are floating-point numbers, zero with a sign among them.

* `Number` is the result, `Scan.number` scans one.
* `floatOfParts` is the floating-point number `significand · 10 ^ exponent`, computed in two roundings;
  a number beyond the range is refused, one below it is zero.
-/

/-- A number as it is read. -/
inductive Number
  | unsigned (n : Nat)
  | signed (i : Int)
  /-- By its bits. -/
  | float (bits : UInt64)
  deriving DecidableEq, Repr

/-- The number in a message. -/
def Number.toFound : Number → Found
  | .unsigned n => .integer n
  | .signed i => .integer i
  | .float bits => .float bits

/-- The largest number that a significand can hold. -/
def significandLimit : Nat := Nat.pow 2 64

/-- The floating-point number with a sign. -/
def signedFloat (positive : Bool) (f : Float) : Number := .float (if positive then f else -f).toBits

/-- The number `f · 10 ^ exponent`.  Exponents beyond the table of powers are taken off in steps;
after two of them nothing is left. -/
def scaleFloat : Nat → Float → Int → Option Float
  | 0, f, _ => some f
  | fuel + 1, f, exponent =>
    if exponent.natAbs ≤ 308 then
      let power := Float.ofScientific 1 false exponent.natAbs
      if 0 ≤ exponent then
        let f := f * power
        if f.isInf then none else some f
      else some (f / power)
    else if f == 0.0 then some f
    else if 0 ≤ exponent then none
    else scaleFloat fuel (f / Float.ofScientific 1 false 308) (exponent + 308)

/-- The number `significand · 10 ^ exponent`. -/
def floatOfParts (positive : Bool) (significand : Nat) (exponent : Int) : Scan Number := fun rest =>
  match scaleFloat 4 (UInt64.ofNat significand).toFloat exponent with
  | some f => .ok (signedFloat positive f, rest)
  | none => stop .numberOutOfRange rest

/-- Takes digits into a significand as long as they fit, and returns those that do not. -/
def takeDigits (significand : Nat) : List Nat → Nat × List Nat
  | [] => (significand, [])
  | d :: ds =>
    let next := significand * 10 + d
    if next < significandLimit then takeDigits next ds else (significand, d :: ds)

/-- The largest exponent that is told apart. -/
def exponentLimit : Nat := Nat.pow 2 31 - 1

/-- An exponent, from the first digit on.  Beyond the limit it is `none`, and what is left is the text
after the digit that passed it. -/
def exponentDigits : Nat → List Char → Option Nat × List Char
  | e, [] => (some e, [])
  | e, c :: text =>
    match Scan.digit? c with
    | none => (some e, c :: text)
    | some d => if exponentLimit < e * 10 + d then (none, text) else exponentDigits (e * 10 + d) text

/-- The exponent of a number, from the character after the letter on. -/
def scanExponent (positive : Bool) (significand : Nat) (exponent : Int) : Scan Number := fun text =>
  let (up, text) := match text with
    | '+' :: text => (true, text)
    | '-' :: text => (false, text)
    | text => (true, text)
  match text with
  | [] => stop .eofInValue []
  | c :: rest =>
    match Scan.digit? c with
    | none => stopAhead .invalidNumber (c :: rest)
    | some d =>
      match exponentDigits d rest with
      | (some e, rest) =>
        floatOfParts positive significand (if up then exponent + e else exponent - e) rest
      | (none, rest) =>
        if up && significand ≠ 0 then stop .numberOutOfRange rest
        else .ok (signedFloat positive 0.0, (Scan.digits rest).2)

/-- The fraction of a number, from the character after the point on. -/
def scanFraction (positive : Bool) (significand : Nat) (exponent : Int) : Scan Number := fun text =>
  match Scan.digits text with
  | ([], []) => stopAhead .eofInValue []
  | ([], rest) => stopAhead .invalidNumber rest
  | (ds, rest) =>
    let (significand, late) := takeDigits significand ds
    let exponent := exponent - (ds.length - late.length : Nat)
    match rest with
    | 'e' :: rest => scanExponent positive significand exponent rest
    | 'E' :: rest => scanExponent positive significand exponent rest
    | rest => floatOfParts positive significand exponent rest

namespace Scan

/-- A number, from its first digit on. -/
def number (positive : Bool) : Scan Number := fun text =>
  match digits text with
  | ([], []) => stop .eofInValue []
  | ([], rest) => stopAhead .invalidNumber rest
  | (0 :: _ :: _, _) => stopAhead .invalidNumber (text.drop 1)
  | (ds, rest) =>
    let (significand, late) := takeDigits 0 ds
    match rest with
    | '.' :: rest => scanFraction positive significand late.length rest
    | 'e' :: rest => scanExponent positive significand late.length rest
    | 'E' :: rest => scanExponent positive significand late.length rest
    | rest =>
      if late ≠ [] then floatOfParts positive significand late.length rest
      else if positive then .ok (.unsigned significand, rest)
      else if significand = 0 ∨ Nat.pow 2 63 < significand then
        .ok (signedFloat false (UInt64.ofNat significand).toFloat, rest)
      else .ok (.signed (-significand), rest)

/-- A number whose value does not matter, from its first digit on. -/
def skipNumber : Scan Unit := fun text =>
  let exponent : Scan Unit := fun text =>
    let text := match text with
      | '+' :: text => text
      | '-' :: text => text
      | text => text
    match text with
    | [] => stop .invalidNumber []
    | c :: rest =>
      if (digit? c).isSome then .ok ((), (digits rest).2) else stopAhead .invalidNumber (c :: rest)
  let tail : Scan Unit := fun text =>
    match text with
    | 'e' :: text => exponent text
    | 'E' :: text => exponent text
    | text => .ok ((), text)
  match digits text with
  | ([], rest) => stopAhead .invalidNumber rest
  | (0 :: _ :: _, _) => stopAhead .invalidNumber (text.drop 1)
  | (_, '.' :: rest) =>
    match digits rest with
    | ([], rest) => stopAhead .invalidNumber rest
    | (_, rest) => tail rest
  | (_, rest) => tail rest

end Scan

end SnapStore.Json
