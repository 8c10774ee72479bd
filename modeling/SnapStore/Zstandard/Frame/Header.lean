import SnapStore.Zstandard.Source
import SnapStore.Zstandard.Block

namespace SnapStore.Zstandard.Frame

/-!
# Headers of frames

Behind the magic number, a frame with contents has a header that says how far back its blocks can copy
from, how large its contents are, and whether a checksum follows.

* `Header` is what it says.
* `Header.read` reads it.
-/

/-- The largest window that the decoder provides. -/
def windowLimit : Nat := 128 * 1024 * 1024 + 1

/-- The smallest window that the decoder provides. -/
def leastWindow : Nat := 1024

/-- What the header of a frame says. -/
structure Header where
  /-- The size of the contents, if it is declared. -/
  contentSize : Option Nat
  /-- How far back a block can copy from. -/
  window : Nat
  /-- Whether a checksum ends the frame. -/
  checksum : Bool
  /-- Whether the frame needs a dictionary. -/
  dictionary : Bool
  deriving DecidableEq, Repr

namespace Header

/-- The largest block of a frame. -/
def blockLimit (h : Header) : Nat := min h.window Literals.blockLimit

/-- The window that a window byte stands for: an exponent and eighths. -/
def windowOf (x : UInt8) : Nat :=
  let base := Nat.pow 2 (x.toNat / 8 + 10)
  base + base / 8 * (x.toNat % 8)

/-- Whether a decoder can represent the window of a window byte at all. -/
def windowExists (x : UInt8) : Bool := x.toNat / 8 + 10 ≤ 31

/-- The fields of a frame header as they stand there. -/
structure Fields where
  flags : Nat
  window : Bytes
  dictionary : Bytes
  size : Bytes

/-- Cuts a header into its fields, from the byte after the magic number on; the flags say which of
the others are there. -/
def Fields.read (s : Source) : Except Fault (Fields × Source) := do
  let (first, s) ← s.take 1
  let flags := Bytes.toNatLE first
  let single := flags / 32 % 2
  let (window, s) ← s.take (1 - single)
  let (dictionary, s) ← s.take (Nat.pow 2 (flags % 4) / 2)
  let (size, s) ← s.take (if flags / 64 = 0 then single else Nat.pow 2 (flags / 64))
  pure (⟨flags, window, dictionary, size⟩, s)

theorem Fields.read_length {s after : Source} {fields : Fields}
    (h : Fields.read s = .ok (fields, after)) : after.rest.length < s.rest.length := by
  simp only [Fields.read, bind, Except.bind, pure, Except.pure] at h
  split at h
  · cases h
  rename_i r1 h1
  split at h
  · cases h
  rename_i r2 h2
  split at h
  · cases h
  rename_i r3 h3
  split at h
  · cases h
  rename_i r4 h4
  cases h
  have h1 := Source.take_length h1
  have h2 := Source.take_length h2
  have h3 := Source.take_length h3
  have h4 := Source.take_length h4
  generalize Nat.pow 2 (r1.1.toNatLE % 4) / 2 = dictionarySize at h3
  omega

/-- The size that the last field declares.  The largest number of eight bytes says that the size is not
known. -/
def declaredSize (size : Bytes) : Option Nat :=
  let n := Bytes.toNatLE size
  match size.length with
  | 0 => none
  | 2 => some (n + 256)
  | 8 => if n + 1 = Nat.pow 2 64 then none else some n
  | _ => some n

/-- What the fields of a header say. -/
def ofFields (f : Fields) : Except Fault Header := do
  if f.flags / 8 % 2 = 1 then throw .unsupported
  if f.window.any (! windowExists ·) then throw .windowTooLarge
  let contentSize := declaredSize f.size
  let window := match f.window with
    | x :: _ => windowOf x
    | [] => Bytes.toNatLE f.size + (if f.size.length = 2 then 256 else 0)
  pure ⟨contentSize, window, f.flags / 4 % 2 = 1, Bytes.toNatLE f.dictionary ≠ 0⟩

/-- Reads the header that follows a magic number. -/
def read (s : Source) : Except Fault (Header × Source) := do
  let (fields, s) ← Fields.read s
  let header ← ofFields fields
  pure (header, s)

theorem read_length {s after : Source} {header : Header} (h : read s = .ok (header, after)) :
    after.rest.length < s.rest.length := by
  simp only [read, bind, Except.bind, pure, Except.pure] at h
  split at h
  · cases h
  rename_i r hr
  split at h
  · cases h
  cases h
  exact Fields.read_length hr

end Header

end SnapStore.Zstandard.Frame
