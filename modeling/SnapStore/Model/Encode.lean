import SnapStore.Model.Value
import SnapStore.Varint

namespace SnapStore

/-!
# The binary form of model values

A value is written without tags or field names: whoever reads it knows its schema.

* Numbers wider than eight bits are variable-length integers, signed ones in zigzag order; eight-bit
  numbers and truth values are one byte; floating-point numbers are their bits, little-endian.
* Text, sequences and maps are their length followed by their contents; a character is a text.
* An absent option is a zero byte, a present one is a one byte and the value; an alternative is its
  position and what it carries; tuples and the unit are their parts and nothing else.
* A sequence of unknown length has no such form: `Value.encode` refuses it.
-/

/-- Why a value has no binary form. -/
inductive EncodeError
  | /-- A sequence does not know its length. -/ unknownLength
  deriving DecidableEq, Repr

/-- The wording of an encoding error. -/
def EncodeError.message : EncodeError → String
  | .unknownLength => "The length of a sequence must be known"

/-- The two's complement byte of an eight-bit signed number. -/
def byteOfInt (i : Int) : UInt8 := UInt8.ofNat (i % 256).toNat

/-- A text with its length in front. -/
def encodeText (s : String) : Bytes :=
  let b := Bytes.ofString s
  Varint.encode b.length ++ b

namespace Value

mutual

/-- The binary form of a value. -/
def encode : Value → Except EncodeError Bytes
  | .unit => .ok []
  | .bool b => .ok [if b then 1 else 0]
  | .nat .w8 n => .ok [UInt8.ofNat n]
  | .nat _ n => .ok (Varint.encode n)
  | .int .w8 i => .ok [byteOfInt i]
  | .int _ i => .ok (Varint.encode (Varint.zigzag i))
  | .float32 bits => .ok (Bytes.ofNatLE 4 bits.toNat)
  | .float64 bits => .ok (Bytes.ofNatLE 8 bits.toNat)
  | .char c => .ok (encodeText c.toString)
  | .string s => .ok (encodeText s)
  | .none => .ok [0]
  | .some v => do return 1 :: (← v.encode)
  | .seq items => do return Varint.encode items.length ++ (← encodeAll items)
  | .stream _ => .error .unknownLength
  | .map entries => do return Varint.encode entries.length ++ (← encodeEntries entries)
  | .tuple fields => encodeAll fields
  | .variant i v => do return Varint.encode i ++ (← v.encode)
termination_by structural v => v

/-- The binary forms of values, one after another. -/
def encodeAll : List Value → Except EncodeError Bytes
  | [] => .ok []
  | v :: vs => do
    let front ← v.encode
    return front ++ (← encodeAll vs)
termination_by structural vs => vs

/-- The binary forms of entries, one after another. -/
def encodeEntries : List (Value × Value) → Except EncodeError Bytes
  | [] => .ok []
  | e :: es => do
    let front ← encodeEntry e
    return front ++ (← encodeEntries es)
termination_by structural es => es

/-- An entry is its key and then its value. -/
def encodeEntry : Value × Value → Except EncodeError Bytes
  | (k, v) => do
    let front ← k.encode
    return front ++ (← v.encode)
termination_by structural e => e

end

end Value

end SnapStore
