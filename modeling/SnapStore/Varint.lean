import SnapStore.Bytes

namespace SnapStore

/-!
# Variable-length integers

A natural number is written in groups of seven bits, least significant first, each in one byte; the
high bit of a byte says that another group follows.

* `Varint.encode` writes the shortest form.
* `Varint.decode w` reads any form of a number below `2 ^ w` that fits in the `⌈w / 7⌉` bytes that
  such a number can need: padding groups are accepted, bits beyond the width are not.
* `Varint.decode_encode_append`: what is written is read back, and what follows is left alone.
* `Varint.zigzag` interleaves the integers with the naturals, so that small magnitudes stay short.
-/

namespace Varint

/-- Why no number could be read. -/
inductive Fault
  | /-- The input ended inside the number. -/ endOfInput
  | /-- The last permitted byte asks for more, or holds bits beyond the width. -/ unterminated
  deriving DecidableEq, Repr

/-- The shortest form of a number. -/
def encode (n : Nat) : Bytes :=
  if n < 128 then [UInt8.ofNat n] else UInt8.ofNat (n % 128 + 128) :: encode (n / 128)
termination_by n

/-- Reads a number of at most `w` bits. -/
def decode : Nat → Reader Fault Nat
  | _, [] => .error .endOfInput
  | w, x :: b =>
    if x.toNat < 128 then
      if x.toNat < Nat.pow 2 w then .ok (x.toNat, b) else .error .unterminated
    else if w ≤ 7 then .error .unterminated
    else do
      let (high, rest) ← decode (w - 7) b
      pure (x.toNat % 128 + 128 * high, rest)

theorem decode_encode_append {w n : Nat} (h : n < Nat.pow 2 w) (rest : Bytes) :
    decode w (encode n ++ rest) = .ok (n, rest) := by
  induction n using Nat.strongRecOn generalizing w with
  | ind n ih =>
    rw [encode]
    split
    · rename_i hn
      have hx : (UInt8.ofNat n).toNat = n := by simp; omega
      simpa [decode, hx, hn] using h
    · -- the low digit is written first, and marked because more of them follow
      rename_i hn
      have hx : (UInt8.ofNat (n % 128 + 128)).toNat = n % 128 + 128 := by simp; omega
      have hw : 7 < w := by
        rcases Nat.lt_or_ge 7 w with hw | hw
        · exact hw
        · have hle : Nat.pow 2 w ≤ Nat.pow 2 7 := Nat.pow_le_pow_right (by omega) hw
          have : Nat.pow 2 7 = 128 := rfl
          omega
      -- what is left fits into seven bits less
      have hq : n / 128 < Nat.pow 2 (w - 7) := by
        have hsplit : Nat.pow 2 w = 128 * Nat.pow 2 (w - 7) := by
          obtain ⟨k, rfl⟩ : ∃ k, w = 7 + k := ⟨w - 7, by omega⟩
          rw [Nat.add_sub_cancel_left]
          exact Nat.pow_add 2 7 k
        exact Nat.div_lt_of_lt_mul (hsplit ▸ h)
      have := ih (n / 128) (by omega) hq
      simp only [List.cons_append, decode, hx, this]
      rw [if_neg (by omega), if_neg (by omega)]
      simp only [bind, Except.bind, pure, Except.pure, Except.ok.injEq, Prod.mk.injEq, and_true]
      omega

/-! ### Signed numbers -/

/-- The position of an integer in the order 0, -1, 1, -2, 2, … -/
def zigzag : Int → Nat
  | .ofNat n => 2 * n
  | .negSucc n => 2 * n + 1

/-- The integer at a position of that order. -/
def unzigzag (n : Nat) : Int :=
  if n % 2 = 0 then .ofNat (n / 2) else .negSucc (n / 2)

@[simp] theorem unzigzag_zigzag (i : Int) : unzigzag (zigzag i) = i := by
  cases i with
  | ofNat n => simp [zigzag, unzigzag]
  | negSucc n =>
    have : (2 * n + 1) / 2 = n := by omega
    simp [zigzag, unzigzag, Nat.add_mod, this]

@[simp] theorem zigzag_unzigzag (n : Nat) : zigzag (unzigzag n) = n := by
  unfold unzigzag
  split <;> simp only [zigzag] <;> omega

end Varint

end SnapStore
