import SnapStore.Decimal.Shortest
import SnapStore.Text.Quoted

namespace SnapStore.Json

/-!
# What can be wrong with a JSON text

A reader that expects certain types meets two sorts of faults: the text is not JSON, or it is JSON of
another type.

* `Found` is what stands where another type is expected, `Cause` the fault.
* `Error` is a fault with its place: the line, and the number of bytes of it that come before.
* `floatText` is the text of a floating-point number.
-/

/-- What stands where another type is expected. -/
inductive Found
  | null
  | bool (b : Bool)
  | integer (i : Int)
  /-- A floating-point number, by its bits. -/
  | float (bits : UInt64)
  | string (s : String)
  | sequence
  | map
  deriving DecidableEq, Repr

/-- Why a text cannot be read. -/
inductive Cause
  | eofInValue | eofInList | eofInObject | eofInString
  | expectedValue | expectedIdent | expectedColon | expectedListCommaOrEnd
  | expectedObjectCommaOrEnd | keyNotString | trailingComma | trailingCharacters
  | invalidEscape | loneSurrogate | unpairedSurrogate | controlCharacter
  | invalidNumber | numberOutOfRange
  | /-- A value of another type. -/ invalidType (found : Found) (expected : String)
  | /-- A number beyond the expected range. -/ invalidValue (found : Found) (expected : String)
  | /-- A field that an object has twice. -/ duplicateField (name : String)
  deriving DecidableEq, Repr

/-- The digits of a number that is not zero: positional from `10 ^ -5` up to `10 ^ 16`, otherwise
with an exponent, which always has a sign. -/
def decimalText (digits : List Char) (k : Int) : List Char :=
  let e := k + digits.length - 1
  if e < -5 ∨ 15 < e then
    let fraction := digits.drop 1
    digits.take 1 ++ (if fraction.isEmpty then [] else '.' :: fraction) ++
      ['e', if e < 0 then '-' else '+'] ++ Nat.toDigits 10 e.natAbs
  else if e < 0 then ['0', '.'] ++ List.replicate (-e - 1).toNat '0' ++ digits
  else
    let whole := (e + 1).toNat
    if digits.length ≤ whole then
      digits ++ List.replicate (whole - digits.length) '0' ++ ['.', '0']
    else digits.take whole ++ '.' :: digits.drop whole

/-- The shortest text of a finite floating-point number that reads back as the same number; it shows
that the number is not an integer by a point or an exponent. -/
def floatText (bits : UInt64) : String :=
  let negative := bits.toNat / Nat.pow 2 63 = 1
  let text :=
    if bits.toNat % Nat.pow 2 63 = 0 then ['0', '.', '0']
    else
      let (d, k) := (Decimal.binaryOfBits bits).2.shortest
      decimalText (Nat.toDigits 10 d) k
  String.ofList (if negative then '-' :: text else text)

/-- The wording of what was found. -/
def Found.message : Found → String
  | .null => "null"
  | .bool b => "boolean `" ++ toString b ++ "`"
  | .integer i => "integer `" ++ toString i ++ "`"
  | .float bits => "floating point `" ++ floatText bits ++ "`"
  | .string s => "string " ++ Text.quote s
  | .sequence => "sequence"
  | .map => "map"

/-- The wording of a fault. -/
def Cause.message : Cause → String
  | .eofInValue => "EOF while parsing a value"
  | .eofInList => "EOF while parsing a list"
  | .eofInObject => "EOF while parsing an object"
  | .eofInString => "EOF while parsing a string"
  | .expectedValue => "expected value"
  | .expectedIdent => "expected ident"
  | .expectedColon => "expected `:`"
  | .expectedListCommaOrEnd => "expected `,` or `]`"
  | .expectedObjectCommaOrEnd => "expected `,` or `\x7d`"
  | .keyNotString => "key must be a string"
  | .trailingComma => "trailing comma"
  | .trailingCharacters => "trailing characters"
  | .invalidEscape => "invalid escape"
  | .loneSurrogate => "lone leading surrogate in hex escape"
  | .unpairedSurrogate => "unexpected end of hex escape"
  | .controlCharacter => "control character (\\u0000-\\u001F) found while parsing a string"
  | .invalidNumber => "invalid number"
  | .numberOutOfRange => "number out of range"
  | .invalidType found expected => "invalid type: " ++ found.message ++ ", expected " ++ expected
  | .invalidValue found expected => "invalid value: " ++ found.message ++ ", expected " ++ expected
  | .duplicateField name => "duplicate field `" ++ name ++ "`"

/-- A fault and its place. -/
structure Error where
  cause : Cause
  line : Nat
  column : Nat
  deriving DecidableEq, Repr

/-- The wording of a fault, with its place. -/
def Error.message (e : Error) : String :=
  e.cause.message ++ " at line " ++ toString e.line ++ " column " ++ toString e.column

end SnapStore.Json
