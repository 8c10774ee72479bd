namespace SnapStore.Zstandard

/-!
# What can be wrong with compressed data

A decoder that sees its input piece by piece reports the first of these that it meets.
-/

/-- Why bytes are not a sequence of complete frames. -/
inductive Fault
  | /-- The input ends inside a frame. -/ incomplete
  | /-- What stands at the start of a frame cannot begin one. -/ unknownMagic
  | /-- The frame is of a version that is no longer read. -/ unsupportedVersion
  | /-- The frame needs a larger window than the decoder provides. -/ windowTooLarge
  | /-- A reserved bit of the frame header is set. -/ unsupported
  | /-- The frame needs a dictionary. -/ dictionaryMismatch
  | /-- A block refers to a code of an earlier block, and there is none. -/ missingCode
  | /-- Literals are split into four streams, but there are too few of them. -/ literalsHeader
  | /-- A part of a block has not the size that it must have. -/ wrongSize
  | /-- The contents do not fit into the buffer of the decoder. -/ outputTooSmall
  | /-- A block is of a kind that the decoder does not know. -/ unknownBlock
  | /-- The contents break a rule of the format. -/ corrupted
  | /-- The contents differ from those that were compressed. -/ checksumMismatch
  deriving DecidableEq, Repr

/-- The wording of a fault. -/
def Fault.message : Fault → String
  | .incomplete => "incomplete frame"
  | .unknownMagic => "Unknown frame descriptor"
  | .unsupportedVersion => "Version not supported"
  | .windowTooLarge => "Frame requires too much memory for decoding"
  | .unsupported => "Unsupported frame parameter"
  | .dictionaryMismatch => "Dictionary mismatch"
  | .missingCode => "Dictionary is corrupted"
  | .literalsHeader => "Header of Literals' block doesn't respect format specification"
  | .wrongSize => "Src size is incorrect"
  | .outputTooSmall => "Destination buffer is too small"
  | .unknownBlock => "Error (generic)"
  | .corrupted => "Data corruption detected"
  | .checksumMismatch => "Restored data doesn't match checksum"

end SnapStore.Zstandard
