namespace SnapStore

/-!
# Byte strings

A byte string is a list of bytes, so that a reader is a function from the bytes at hand to a result
and the bytes left over, and every statement about what follows is a statement about `++`.

* `Bytes.split?` cuts off exactly `n` bytes, or says that there are fewer.
* `Bytes.ofNatLE` / `Bytes.toNatLE` are numbers in little-endian order; reading undoes writing.
* `Bytes.ofString` / `Bytes.toString?` are UTF-8, read strictly; `Bytes.exists_mem_of_mem_ofString` says
  that a low byte stands for the character of its number.
-/

/-- A byte string. -/
abbrev Bytes := List UInt8

/-- A reader of one item from the front of a byte string, with the bytes that it leaves. -/
abbrev Reader (ε α : Type) := Bytes → Except ε (α × Bytes)

/-- A computation that succeeds has succeeded at every step. -/
theorem bind_eq_ok_iff {ε α β : Type} {x : Except ε α} {f : α → Except ε β} {y : β} :
    x >>= f = .ok y ↔ ∃ a, x = .ok a ∧ f a = .ok y := by
  cases x <;> simp [bind, Except.bind]

theorem map_eq_ok_iff {ε α β : Type} {x : Except ε α} {f : α → β} {y : β} :
    x.map f = .ok y ↔ ∃ a, x = .ok a ∧ f a = y := by
  cases x <;> simp [Except.map]

/-- A computation that is refused in some cases has succeeded in others. -/
theorem refuse_eq_ok_iff {ε α : Type} {c : Prop} [Decidable c] {e : ε} {x : Except ε α} {a : α} :
    (if c then .error e else x) = .ok a ↔ ¬ c ∧ x = .ok a := by
  split <;> simp [*]

namespace Bytes

/-! ### Cutting -/

/-- Moves `n` bytes from the front of `b` to `front`, which holds the last one first. -/
def splitFrom : Nat → Bytes → Bytes → Option (Bytes × Bytes)
  | 0, b, front => some (front.reverse, b)
  | _ + 1, [], _ => none
  | n + 1, x :: b, front => splitFrom n b (x :: front)

/-- The first `n` bytes and the rest, if there are `n` bytes. -/
def split? (n : Nat) (b : Bytes) : Option (Bytes × Bytes) := splitFrom n b []

private theorem splitFrom_append (a b front : Bytes) :
    splitFrom a.length (a ++ b) front = some (front.reverse ++ a, b) := by
  induction a generalizing front with
  | nil => simp [splitFrom]
  | cons x a ih => simp [splitFrom, ih]

private theorem eq_of_splitFrom {n : Nat} {b front a rest : Bytes}
    (h : splitFrom n b front = some (a, rest)) :
    ∃ mid, a = front.reverse ++ mid ∧ b = mid ++ rest ∧ mid.length = n := by
  induction n generalizing b front with
  | zero => simp [splitFrom] at h; exact ⟨[], by simp [h.1], by simp [h.2], rfl⟩
  | succ n ih =>
    cases b with
    | nil => simp [splitFrom] at h
    | cons x b =>
      obtain ⟨mid, rfl, rfl, rfl⟩ := ih h
      exact ⟨x :: mid, by simp, by simp, by simp⟩

theorem split?_append (a b : Bytes) : split? a.length (a ++ b) = some (a, b) := by
  simp [split?, splitFrom_append]

theorem eq_append_of_split? {n : Nat} {b front rest : Bytes} (h : split? n b = some (front, rest)) :
    b = front ++ rest ∧ front.length = n := by
  obtain ⟨mid, rfl, rfl, rfl⟩ := eq_of_splitFrom h
  simp

private theorem splitFrom_eq_none_iff {n : Nat} {b front : Bytes} :
    splitFrom n b front = none ↔ b.length < n := by
  induction n generalizing b front with
  | zero => simp [splitFrom]
  | succ n ih => cases b <;> simp [splitFrom, ih]

theorem split?_eq_none_iff {n : Nat} {b : Bytes} : split? n b = none ↔ b.length < n :=
  splitFrom_eq_none_iff

/-! ### Little-endian numbers -/

/-- The number whose base-256 digits, least significant first, are the bytes. -/
def toNatLE : Bytes → Nat
  | [] => 0
  | x :: b => x.toNat + 256 * toNatLE b

/-- The `n` least significant base-256 digits of a number, least significant first. -/
def ofNatLE : Nat → Nat → Bytes
  | 0, _ => []
  | n + 1, v => UInt8.ofNat v :: ofNatLE n (v / 256)

@[simp] theorem length_ofNatLE (n v : Nat) : (ofNatLE n v).length = n := by
  induction n generalizing v with
  | zero => rfl
  | succ n ih => simp [ofNatLE, ih]

/-- Reading `n` digits back gives the number, if it has no more than `n` digits. -/
theorem toNatLE_ofNatLE {n v : Nat} (h : v < Nat.pow 256 n) : toNatLE (ofNatLE n v) = v := by
  induction n generalizing v with
  | zero => simp at h; simp [ofNatLE, toNatLE, h]
  | succ n ih =>
    have hq : v / 256 < Nat.pow 256 n := by
      have h : v < Nat.pow 256 n * 256 := h
      exact Nat.div_lt_of_lt_mul (Nat.mul_comm 256 _ ▸ h)
    simp only [ofNatLE, toNatLE, ih hq, UInt8.toNat_ofNat']
    omega

/-! ### Text -/

/-- The UTF-8 bytes of a text. -/
def ofString (s : String) : Bytes := s.toByteArray.data.toList

/-- The text that the bytes are the UTF-8 form of; `none` if they are not well-formed UTF-8. -/
def toString? (b : Bytes) : Option String := String.fromUTF8? ⟨b.toArray⟩

theorem toString?_ofString (s : String) : toString? (ofString s) = some s := by
  have h : (⟨s.toByteArray.data.toList.toArray⟩ : ByteArray) = s.toByteArray := by simp
  simp only [toString?, ofString, h, String.fromUTF8?]
  rw [dif_pos s.isValidUTF8]
  rfl

theorem ofString_of_toString? {b : Bytes} {s : String} (h : toString? b = some s) :
    ofString s = b := by
  simp only [toString?, String.fromUTF8?] at h
  split at h
  · cases h; simp [ofString, String.fromUTF8]
  · simp at h

theorem ofString_inj {s t : String} : ofString s = ofString t ↔ s = t := by
  refine ⟨fun h => ?_, congrArg ofString⟩
  have hs := toString?_ofString s
  rw [h, toString?_ofString, Option.some.injEq] at hs
  exact hs.symm

theorem ofString_eq_flatMap (s : String) : ofString s = s.toList.flatMap String.utf8EncodeChar := by
  have h : (String.ofList s.toList).toByteArray = s.toList.utf8Encode := String.toByteArray_ofList
  rw [String.ofList_toList] at h
  simp [ofString, h, List.utf8Encode]

/-- A byte that stands for a character of its own stands for nothing else. -/
theorem toNat_eq_of_mem_utf8EncodeChar {c : Char} {x : UInt8} (hx : x.toNat < 128)
    (h : x ∈ String.utf8EncodeChar c) : c.toNat = x.toNat := by
  -- the bytes of the other characters are all higher
  have hbyte {n : Nat} (heq : x = UInt8.ofNat n) : x.toNat = n % 256 := by rw [heq, UInt8.toNat_ofNat']
  show c.val.toNat = x.toNat
  simp only [String.utf8EncodeChar] at h
  split at h
  · have := hbyte (List.mem_singleton.mp h)
    omega
  · split at h
    · simp only [List.mem_cons, List.not_mem_nil, or_false] at h
      rcases h with h | h <;> have := hbyte h <;> omega
    · split at h <;> simp only [List.mem_cons, List.not_mem_nil, or_false] at h
      · rcases h with h | h | h <;> have := hbyte h <;> omega
      · rcases h with h | h | h | h <;> have := hbyte h <;> omega

theorem exists_mem_of_mem_ofString {s : String} {x : UInt8} (hx : x.toNat < 128) (h : x ∈ ofString s) :
    ∃ c ∈ s.toList, c.toNat = x.toNat := by
  rw [ofString_eq_flatMap, List.mem_flatMap] at h
  obtain ⟨c, hc, h⟩ := h
  exact ⟨c, hc, toNat_eq_of_mem_utf8EncodeChar hx h⟩

end Bytes

end SnapStore
