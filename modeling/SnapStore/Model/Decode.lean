import SnapStore.Model.Schema
import SnapStore.Varint

namespace SnapStore

/-!
# Reading model values

`Layout.decode` reads the binary form of a value of a schema from the front of a byte string and
leaves the bytes after it alone.

* A number may be written longer than needed, as long as it fits its width.
* A map may list its entries in any order; of two entries with one key the last one counts.
* A definition that has a value reads at least one byte before it comes round to itself, so that
  between two bytes every definition is followed at most once.  `Layout.decode` allows as many turns
  as that makes, and the bound is never what stops it at a value; a definition that refers to itself
  without reading anything ends as missing input.
-/

/-- Why bytes are not a value of a schema. -/
inductive DecodeError
  | /-- The input ended inside the value. -/ endOfInput
  | /-- A number is longer than its width permits. -/ unterminatedVarint
  | /-- A truth value is neither 0 nor 1. -/ badBool
  | /-- An option is marked neither absent nor present. -/ badOption
  | /-- A character is too long, empty or not well-formed. -/ badChar
  | /-- A text is not well-formed. -/ badText
  | /-- No alternative has that position. -/ unknownVariant
  deriving DecidableEq, Repr

/-- The wording of a decoding error. -/
def DecodeError.message : DecodeError → String
  | .endOfInput => "Hit the end of buffer, expected more data"
  | .unterminatedVarint =>
    "Found a varint that didn't terminate. Is the usize too big for this platform?"
  | .badBool => "Found a bool that wasn't 0 or 1"
  | .badOption => "Found an Option discriminant that wasn't 0 or 1"
  | .badChar => "Found an invalid unicode char"
  | .badText => "Tried to parse invalid utf-8"
  | .unknownVariant => "Serde Deserialization Error"

namespace Decode

/-- One byte. -/
def byte : Reader DecodeError UInt8
  | [] => .error .endOfInput
  | x :: b => .ok (x, b)

/-- Exactly `n` bytes. -/
def take (n : Nat) : Reader DecodeError Bytes := fun b =>
  match Bytes.split? n b with
  | some (front, rest) => .ok (front, rest)
  | none => .error .endOfInput

/-- A number of at most `w` bits. -/
def varint (w : Nat) : Reader DecodeError Nat := fun b =>
  match Varint.decode w b with
  | .ok r => .ok r
  | .error .endOfInput => .error .endOfInput
  | .error .unterminated => .error .unterminatedVarint

/-- The bytes of a text with its length in front. -/
def lengthPrefixed : Reader DecodeError Bytes := fun b => do
  let (n, b) ← varint 64 b
  take n b

/-- A truth value. -/
def bool : Reader DecodeError Bool := fun b => do
  let (x, b) ← byte b
  if x = 0 then pure (false, b) else if x = 1 then pure (true, b) else throw .badBool

/-- A number of the given width. -/
def nat : Width → Reader DecodeError Nat
  | .w8 => fun b => do
    let (x, b) ← byte b
    pure (x.toNat, b)
  | w => varint w.bits

/-- A signed number of the given width. -/
def int : Width → Reader DecodeError Int
  | .w8 => fun b => do
    let (x, b) ← byte b
    pure (x.toInt8.toInt, b)
  | w => fun b => do
    let (n, b) ← varint w.bits b
    pure (Varint.unzigzag n, b)

/-- A text. -/
def text : Reader DecodeError String := fun b => do
  let (raw, b) ← lengthPrefixed b
  match Bytes.toString? raw with
  | some s => pure (s, b)
  | none => throw .badText

/-- A character: the first one of a text of at most four bytes. -/
def char : Reader DecodeError Char := fun b => do
  let (n, b) ← varint 64 b
  if 4 < n then throw .badChar
  let (raw, b) ← take n b
  match (Bytes.toString? raw).bind (·.toList.head?) with
  | some c => pure (c, b)
  | none => throw .badChar

/-- Whether an option is present. -/
def presence : Reader DecodeError Bool := fun b => do
  let (x, b) ← byte b
  if x = 0 then pure (false, b) else if x = 1 then pure (true, b) else throw .badOption

/-- `n` items, put in front of those that are already there, which are kept last item first. -/
def items {α : Type} (item : Reader DecodeError α) : Nat → List α → Reader DecodeError (List α)
  | 0, acc => fun b => .ok (acc.reverse, b)
  | n + 1, acc => fun b =>
    match item b with
    | .ok (x, b) => items item n (x :: acc) b
    | .error e => .error e

/-- A count and that many items. -/
def counted {α : Type} (item : Reader DecodeError α) : Reader DecodeError (List α) := fun b => do
  let (n, b) ← varint 64 b
  items item n [] b

/-- A key and then a value. -/
def entry (key value : Reader DecodeError Value) : Reader DecodeError (Value × Value) := fun b => do
  let (k, b) ← key b
  let (v, b) ← value b
  pure ((k, v), b)

end Decode

namespace Schema

mutual

/-- Reads a value of a shape, where `self` reads the values of the definitions. -/
def decodeWith (self : Nat → Reader DecodeError Value) : Schema → Reader DecodeError Value
  | .unit => fun b => .ok (.unit, b)
  | .bool => fun b => do
    let (x, b) ← Decode.bool b
    pure (.bool x, b)
  | .nat w => fun b => do
    let (n, b) ← Decode.nat w b
    pure (.nat w n, b)
  | .int w => fun b => do
    let (i, b) ← Decode.int w b
    pure (.int w i, b)
  | .float32 => fun b => do
    let (raw, b) ← Decode.take 4 b
    pure (.float32 (UInt32.ofNat (Bytes.toNatLE raw)), b)
  | .float64 => fun b => do
    let (raw, b) ← Decode.take 8 b
    pure (.float64 (UInt64.ofNat (Bytes.toNatLE raw)), b)
  | .char => fun b => do
    let (c, b) ← Decode.char b
    pure (.char c, b)
  | .string => fun b => do
    let (s, b) ← Decode.text b
    pure (.string s, b)
  | .option item => fun b => do
    let (present, b) ← Decode.presence b
    if present then
      let (v, b) ← item.decodeWith self b
      pure (.some v, b)
    else pure (.none, b)
  | .seq item => fun b => do
    let (vs, b) ← Decode.counted (item.decodeWith self) b
    pure (.seq vs, b)
  | .stream item => fun b => do
    let (vs, b) ← Decode.counted (item.decodeWith self) b
    pure (.stream vs, b)
  | .map key value => fun b => do
    let (es, b) ← Decode.counted (Decode.entry (key.decodeWith self) (value.decodeWith self)) b
    pure (Value.mapOf es, b)
  | .tuple fields => fun b => do
    let (vs, b) ← decodeFields self fields b
    pure (.tuple vs, b)
  | .union alternatives => fun b => do
    let (i, b) ← Decode.varint 32 b
    let (v, b) ← decodeAlternative self alternatives i b
    pure (.variant i v, b)
  | .ref i => self i
termination_by structural s => s

/-- Reads one value of each shape, in order. -/
def decodeFields (self : Nat → Reader DecodeError Value) :
    List Schema → Reader DecodeError (List Value)
  | [] => fun b => .ok ([], b)
  | s :: ss => fun b => do
    let (v, b) ← s.decodeWith self b
    let (vs, b) ← decodeFields self ss b
    pure (v :: vs, b)
termination_by structural ss => ss

/-- Reads a value of the shape at a position, if there is one. -/
def decodeAlternative (self : Nat → Reader DecodeError Value) :
    List Schema → Nat → Reader DecodeError Value
  | [], _ => fun _ => .error .unknownVariant
  | s :: _, 0 => s.decodeWith self
  | _ :: ss, i + 1 => decodeAlternative self ss i
termination_by structural ss => ss

end

/-- Reads a value of a shape, following definitions at most `turns` deep. -/
def decodeAt (defs : List Schema) : Nat → Schema → Reader DecodeError Value
  | 0, _ => fun _ => .error .endOfInput
  | turns + 1, s => s.decodeWith fun i =>
    match defs[i]? with
    | some target => decodeAt defs turns target
    | none => fun _ => .error .unknownVariant

end Schema

/-- Reads a value of a model type. -/
def Layout.decode (l : Layout) : Reader DecodeError Value := fun b =>
  Schema.decodeAt l.defs (l.defs.length * (b.length + 1) + 1) l.root b

end SnapStore
