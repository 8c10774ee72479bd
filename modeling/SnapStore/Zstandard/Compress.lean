import SnapStore.Zstandard.Frame

namespace SnapStore.Zstandard

/-!
# Writing frames

`compress` writes a byte string as one frame with a checksum.  The contents are cut into blocks; a
block that repeats one byte is stored as that byte, any other one as it is.  A negative level asks
for speed, and then no block is looked at.
-/

namespace Frame

/-- The header of a written frame: a checksum follows, no size is declared, and the window is as large
as the largest block. -/
def writtenHeader : Bytes := [0x04, 0x38]

/-- Cuts contents into pieces of at most the size of a block; even empty contents are one piece. -/
def pieces (b : Bytes) : List Bytes :=
  if b.length ≤ Literals.blockLimit then [b]
  else b.take Literals.blockLimit :: pieces (b.drop Literals.blockLimit)
termination_by b.length
decreasing_by
  simp only [List.length_drop, Literals.blockLimit] at *
  omega

/-- The byte that a piece repeats, if it repeats one. -/
def repeated? : Bytes → Option UInt8
  | x :: y :: b => if y = x ∧ b.all (· == x) then some x else none
  | _ => none

/-- A block with its header. -/
def writeBlock (level : Int) (last : Bool) (piece : Bytes) : Bytes :=
  match if level < 0 then none else repeated? piece with
  | some x => Block.Header.toBytes ⟨last, .run, piece.length⟩ ++ [x]
  | none => Block.Header.toBytes ⟨last, .raw, piece.length⟩ ++ piece

/-- The blocks of a frame, the last one marked. -/
def writeBlocks (level : Int) : List Bytes → Bytes
  | [] => []
  | [piece] => writeBlock level true piece
  | piece :: rest => writeBlock level false piece ++ writeBlocks level rest

end Frame

/-- One frame with the given contents. -/
def compress (level : Int) (content : Bytes) : Bytes :=
  Frame.magic ++ Frame.writtenHeader ++ Frame.writeBlocks level (Frame.pieces content) ++
    Checksum.ofContent content

end SnapStore.Zstandard
