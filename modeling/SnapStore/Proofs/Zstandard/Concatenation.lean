import SnapStore.Proofs.Zstandard.Decoding

namespace SnapStore.Zstandard

/-!
# Frames behind others

Frames that can be decompressed are decompressed as well in front of others.  Behind others, they need more:
another buffer may be there, and chunks end elsewhere.  Frames that keep the rules of the format are
decompressed all the same (`decompress_append`), and others may not be.
-/

variable {a b x y : Bytes}

theorem ne_nil_of_decompress (h : decompress b = .ok x) : b ≠ [] := by
  rintro rfl
  cases h

theorem decompress_append (ha : decompress a = .ok x) (hb : decompress b = .ok y) (hkeeps : Format.Keeps b) :
    decompress (a ++ b) = .ok (x ++ y) := by
  have hne := ne_nil_of_decompress ha
  rw [decompress_of_ne_nil hne] at ha
  rw [decompress_of_ne_nil (ne_nil_of_decompress hb)] at hb
  obtain ⟨content, hcontents⟩ := hkeeps
  -- whichever buffers the first frames leave, what the others hold is what the format says
  obtain ⟨buffers, taken, hfollowed⟩ := decodeAll_followed ha
  have hbehind := decodeAll_of_contents hcontents buffers taken
  rw [decodeAll_of_contents hcontents {} 0] at hb
  cases hb
  rw [decompress_of_ne_nil (List.append_ne_nil_of_left_ne_nil hne b)]
  show decodeAll {} (Source.followedBy { rest := a } b) = _
  rw [hfollowed b, hbehind]
  rfl

end SnapStore.Zstandard
