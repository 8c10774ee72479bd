import SnapStore.Bytes
import SnapStore.Text.Quoted

namespace SnapStore.Text

/-!
# Bytes that may be no text

The names that a system gives to files are bytes, which mostly are UTF-8 and need not be.  To show them,
what is well-formed is read, and the rest is marked.

* `pieces` takes bytes apart into characters and stray bytes, as many of them at a time as a character could
  have begun with.
* `lossy` has a replacement character for stray bytes, `quoteBytes` has them in hexadecimal.
-/

/-- A part of some bytes. -/
inductive Piece
  | /-- A character. -/ text (s : String)
  | /-- The start of a character that does not go on, or a byte that none starts with. -/
    stray (bytes : Bytes)
  deriving DecidableEq, Repr

/-- How many bytes follow the first one of a character, and the lowest and the highest value of the next
one. -/
def lead (x : UInt8) : Nat × UInt8 × UInt8 :=
  if x < 0x80 then (0, 0x80, 0xbf)
  else if 0xc2 ≤ x ∧ x ≤ 0xdf then (1, 0x80, 0xbf)
  else if x = 0xe0 then (2, 0xa0, 0xbf)
  else if x = 0xed then (2, 0x80, 0x9f)
  else if 0xe1 ≤ x ∧ x ≤ 0xef then (2, 0x80, 0xbf)
  else if x = 0xf0 then (3, 0x90, 0xbf)
  else if 0xf1 ≤ x ∧ x ≤ 0xf3 then (3, 0x80, 0xbf)
  else if x = 0xf4 then (3, 0x80, 0x8f)
  else (1, 0xff, 0x00)

/-- How many of up to `n` bytes go on with a character. -/
def following : Nat → UInt8 → UInt8 → Bytes → Nat
  | n + 1, low, high, x :: b => if low ≤ x ∧ x ≤ high then following n 0x80 0xbf b + 1 else 0
  | _, _, _, _ => 0

/-- The pieces of some bytes, of which there are at most `fuel`. -/
def piecesFrom : Nat → Bytes → List Piece
  | fuel + 1, x :: b =>
    let (n, low, high) := lead x
    let k := following n low high b
    let front := x :: b.take k
    let piece : Piece := match if k = n then Bytes.toString? front else none with
      | some s => .text s
      | none => .stray front
    piece :: piecesFrom fuel (b.drop k)
  | _, _ => []

/-- The pieces of some bytes. -/
def pieces (b : Bytes) : List Piece := piecesFrom b.length b

/-- Bytes as a text, with a replacement character for what is none. -/
def lossy (b : Bytes) : String :=
  match Bytes.toString? b with
  | some s => s
  | none => String.join ((pieces b).map fun
    | .text s => s
    | .stray _ => "\uFFFD")

/-- A byte as it stands in quotes. -/
def quoteByte (x : UInt8) : List Char :=
  ['\\', 'x'] ++ [x.toNat / 16, x.toNat % 16].map fun n => (Nat.digitChar n).toUpper

/-- Bytes in quotes. -/
def quoteBytes (b : Bytes) : String :=
  let body := (pieces b).flatMap fun
    | .text s => s.toList.flatMap quoteChar
    | .stray bytes => bytes.flatMap quoteByte
  String.ofList ('"' :: body ++ ['"'])

/-- A text is shown as it is. -/
theorem lossy_ofString (s : String) : lossy (Bytes.ofString s) = s := by
  rw [lossy, Bytes.toString?_ofString]

example : lossy [0x61, 0xff, 0xe2, 0x82, 0x62] = "a\uFFFD\uFFFDb" := by decide

end SnapStore.Text
