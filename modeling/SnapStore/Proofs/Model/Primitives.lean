import SnapStore.Model.Decode
import SnapStore.Model.Encode
import Mathlib.Data.List.Forall2

namespace SnapStore

/-!
# Reading single items back

Every item of the binary form says itself where it ends, so that items can stand one after another
without lengths in between.

* `Reader.Takes r b x` — the reader `r` takes exactly `b` off the front, whatever follows, and makes
  `x` of it.
* `Decode.takes_varint`, `Decode.takes_nat`, `Decode.takes_int`, `Decode.takes_text`,
  `Decode.takes_char` — what is written of a single item is taken back.
* `Decode.takes_items`, `Decode.takes_counted` — and so are items one after another.
-/

/-- A reader takes exactly the bytes `b` off the front, whatever follows, and makes `x` of them. -/
def Reader.Takes {ε α : Type} (r : Reader ε α) (b : Bytes) (x : α) : Prop :=
  ∀ rest, r (b ++ rest) = .ok (x, rest)

namespace Decode

/-! ### Numbers -/

theorem takes_byte (x : UInt8) : byte.Takes [x] x := fun _ => rfl

theorem takes_take (b : Bytes) : (take b.length).Takes b b := by
  intro rest
  simp only [take, Bytes.split?_append]

theorem takes_ofNatLE (n v : Nat) : (take n).Takes (Bytes.ofNatLE n v) (Bytes.ofNatLE n v) := by
  simpa using takes_take (Bytes.ofNatLE n v)

theorem takes_varint {w n : Nat} (h : n < Nat.pow 2 w) : (varint w).Takes (Varint.encode n) n := by
  intro rest
  simp only [varint, Varint.decode_encode_append h rest]

theorem takes_nat {w : Width} {n : Nat} {b : Bytes} (bound : n < Nat.pow 2 w.bits)
    (hb : (Value.nat w n).encode = .ok b) : (nat w).Takes b n := by
  intro rest
  cases w with
  | w8 =>
    cases hb
    have hn : n < 256 := bound
    simp only [nat, takes_byte (UInt8.ofNat n) rest, bind, Except.bind, pure, Except.pure,
      UInt8.toNat_ofNat', Nat.mod_eq_of_lt hn]
  | w16 | w32 | w64 | w128 => cases hb; exact takes_varint bound rest

/-- The two's complement byte of a number in range stands for that number. -/
theorem toInt_byteOfInt {i : Int} (lower : -128 ≤ i) (upper : i < 128) :
    (byteOfInt i).toInt8.toInt = i := by
  have hpos : 0 ≤ i % 256 := Int.emod_nonneg i (by decide)
  rw [byteOfInt, UInt8.toInt8_ofNat', Int8.toInt_ofNat', Int.toNat_of_nonneg hpos]
  show (i % (256 : Nat)).bmod 256 = i
  rw [Int.emod_bmod]
  exact Int.bmod_eq_of_le (by omega) (by omega)

/-- A number of a width takes no more bits in zigzag order. -/
theorem zigzag_lt {w : Width} {i : Int} (lower : -(Nat.pow 2 (w.bits - 1) : Int) ≤ i)
    (upper : i < (Nat.pow 2 (w.bits - 1) : Int)) : Varint.zigzag i < Nat.pow 2 w.bits := by
  have hpow : Nat.pow 2 w.bits = 2 * Nat.pow 2 (w.bits - 1) := by cases w <;> rfl
  rw [hpow]
  generalize Nat.pow 2 (w.bits - 1) = p at lower upper
  cases i with
  | ofNat n => rw [Int.ofNat_eq_natCast] at upper; simp only [Varint.zigzag]; omega
  | negSucc n => simp only [Varint.zigzag]; omega

theorem takes_int {w : Width} {i : Int} {b : Bytes} (lower : -(Nat.pow 2 (w.bits - 1) : Int) ≤ i)
    (upper : i < (Nat.pow 2 (w.bits - 1) : Int)) (hb : (Value.int w i).encode = .ok b) :
    (int w).Takes b i := by
  intro rest
  have hz := takes_varint (zigzag_lt lower upper) rest
  cases w with
  | w8 =>
    cases hb
    simp only [int, takes_byte (byteOfInt i) rest, bind, Except.bind, pure, Except.pure,
      toInt_byteOfInt lower upper]
  | w16 | w32 | w64 | w128 =>
    cases hb
    simp only [int, hz, bind, Except.bind, pure, Except.pure, Varint.unzigzag_zigzag]

/-! ### Text -/

@[simp] theorem length_ofString (s : String) : (Bytes.ofString s).length = s.utf8ByteSize := by
  simp [Bytes.ofString]

theorem takes_text {s : String} (bound : s.utf8ByteSize < Nat.pow 2 64) :
    text.Takes (encodeText s) s := by
  intro rest
  have hn : (Bytes.ofString s).length < Nat.pow 2 64 := by rwa [length_ofString]
  simp only [text, lengthPrefixed, encodeText, List.append_assoc, takes_varint hn _,
    takes_take (Bytes.ofString s) rest, Bytes.toString?_ofString, bind, Except.bind, pure,
    Except.pure]

theorem takes_char (c : Char) : char.Takes (encodeText c.toString) c := by
  intro rest
  have h4 : (Bytes.ofString c.toString).length ≤ 4 := by
    rw [length_ofString, Char.toString, String.utf8ByteSize_singleton]
    exact c.utf8Size_le_four
  have hn : (Bytes.ofString c.toString).length < Nat.pow 2 64 := Nat.lt_of_le_of_lt h4 (by decide)
  have hhead : ((some c.toString).bind fun s => s.toList.head?) = some c := by
    rw [Char.toString, Option.bind_some, String.toList_singleton]
    rfl
  simp only [char, encodeText, List.append_assoc, takes_varint hn _,
    takes_take (Bytes.ofString c.toString) rest, Bytes.toString?_ofString, hhead, bind, Except.bind,
    pure, Except.pure, if_neg (Nat.not_lt.mpr h4)]

/-! ### Items one after another -/

/-- Items that are taken back one by one are taken back one after another. -/
theorem takes_items {α : Type} {r : Reader DecodeError α} {encode : α → Except EncodeError Bytes}
    {xs : List α} {bs : List Bytes} (h : List.Forall₂ (fun x b => encode x = .ok b) xs bs)
    (item : ∀ x ∈ xs, ∀ b ∈ bs, encode x = .ok b → r.Takes b x) (acc : List α) :
    (items r xs.length acc).Takes bs.flatten (acc.reverse ++ xs) := by
  intro rest
  induction h generalizing acc with
  | nil => simp [items]
  | @cons x b xs bs hb _ ih =>
    have hx := item x (by simp) b (by simp) hb (bs.flatten ++ rest)
    have hxs := ih (fun y hy c hc => item y (by simp [hy]) c (by simp [hc])) (x :: acc)
    simp only [List.length_cons, items, List.flatten_cons, List.append_assoc, hx, hxs]
    simp

theorem takes_counted {α : Type} {r : Reader DecodeError α}
    {encode : α → Except EncodeError Bytes} {xs : List α} {bs : List Bytes}
    (bound : xs.length < Nat.pow 2 64) (h : List.Forall₂ (fun x b => encode x = .ok b) xs bs)
    (item : ∀ x ∈ xs, ∀ b ∈ bs, encode x = .ok b → r.Takes b x) :
    (counted r).Takes (Varint.encode xs.length ++ bs.flatten) xs := by
  intro rest
  simp only [counted, List.append_assoc, takes_varint bound _, bind, Except.bind]
  simpa using takes_items h item [] rest

end Decode

/-! ### What is written, item by item -/

theorem Varint.length_encode_pos (n : Nat) : 0 < (Varint.encode n).length := by
  rw [Varint.encode]
  split <;> simp

namespace Value

/-- What is written of items one after another is one binary form an item, whatever the items. -/
private theorem forall₂_of_encodeList {α : Type} (encode : α → Except EncodeError Bytes)
    (encodeList : List α → Except EncodeError Bytes) (nil : encodeList [] = .ok [])
    (cons : ∀ x xs, encodeList (x :: xs) = do
      let front ← encode x
      return front ++ (← encodeList xs))
    {xs : List α} {b : Bytes} (h : encodeList xs = .ok b) :
    ∃ bs, List.Forall₂ (fun x c => encode x = .ok c) xs bs ∧ b = bs.flatten := by
  induction xs generalizing b with
  | nil => rw [nil] at h; cases h; exact ⟨[], .nil, rfl⟩
  | cons x xs ih =>
    rw [cons] at h
    obtain ⟨c, hc, h⟩ := bind_eq_ok_iff.mp h
    obtain ⟨d, hd, h⟩ := bind_eq_ok_iff.mp h
    cases h
    obtain ⟨bs, hbs, rfl⟩ := ih hd
    exact ⟨c :: bs, .cons hc hbs, rfl⟩

theorem forall₂_of_encodeAll {vs : List Value} {b : Bytes} (h : encodeAll vs = .ok b) :
    ∃ bs, List.Forall₂ (fun v c => v.encode = .ok c) vs bs ∧ b = bs.flatten :=
  forall₂_of_encodeList Value.encode encodeAll rfl (fun _ _ => rfl) h

theorem forall₂_of_encodeEntries {es : List (Value × Value)} {b : Bytes}
    (h : encodeEntries es = .ok b) :
    ∃ bs, List.Forall₂ (fun e c => encodeEntry e = .ok c) es bs ∧ b = bs.flatten :=
  forall₂_of_encodeList encodeEntry encodeEntries rfl (fun _ _ => rfl) h

/-- A binary form among others is shorter than all of them with their number in front. -/
theorem length_lt_of_mem_flatten {bs : List Bytes} {c : Bytes} {n : Nat} (h : c ∈ bs) :
    c.length < (Varint.encode n ++ bs.flatten).length := by
  have hle := (List.sublist_flatten_of_mem h).length_le
  have hpos := Varint.length_encode_pos n
  rw [List.length_append]
  omega

theorem encode_some_eq_ok {v : Value} {b : Bytes} (h : (some v).encode = .ok b) :
    ∃ c, v.encode = .ok c ∧ b = 1 :: c := by
  obtain ⟨c, hc, h⟩ := bind_eq_ok_iff.mp h
  cases h
  exact ⟨c, hc, rfl⟩

theorem encode_seq_eq_ok {vs : List Value} {b : Bytes} (h : (seq vs).encode = .ok b) :
    ∃ bs, List.Forall₂ (fun v c => v.encode = .ok c) vs bs ∧
      b = Varint.encode vs.length ++ bs.flatten := by
  obtain ⟨c, hc, h⟩ := bind_eq_ok_iff.mp h
  cases h
  obtain ⟨bs, hbs, rfl⟩ := forall₂_of_encodeAll hc
  exact ⟨bs, hbs, rfl⟩

theorem encode_map_eq_ok {es : List (Value × Value)} {b : Bytes} (h : (map es).encode = .ok b) :
    ∃ bs, List.Forall₂ (fun e c => encodeEntry e = .ok c) es bs ∧
      b = Varint.encode es.length ++ bs.flatten := by
  obtain ⟨c, hc, h⟩ := bind_eq_ok_iff.mp h
  cases h
  obtain ⟨bs, hbs, rfl⟩ := forall₂_of_encodeEntries hc
  exact ⟨bs, hbs, rfl⟩

theorem encodeEntry_eq_ok {e : Value × Value} {b : Bytes} (h : encodeEntry e = .ok b) :
    ∃ c d, e.1.encode = .ok c ∧ e.2.encode = .ok d ∧ b = c ++ d := by
  obtain ⟨k, v⟩ := e
  obtain ⟨c, hc, h⟩ := bind_eq_ok_iff.mp h
  obtain ⟨d, hd, h⟩ := bind_eq_ok_iff.mp h
  cases h
  exact ⟨c, d, hc, hd, rfl⟩

theorem encode_cons_eq_ok {v : Value} {vs : List Value} {b : Bytes}
    (h : (tuple (v :: vs)).encode = .ok b) :
    ∃ c d, v.encode = .ok c ∧ (tuple vs).encode = .ok d ∧ b = c ++ d := by
  obtain ⟨c, hc, h⟩ := bind_eq_ok_iff.mp h
  obtain ⟨d, hd, h⟩ := bind_eq_ok_iff.mp h
  cases h
  exact ⟨c, d, hc, hd, rfl⟩

theorem encode_variant_eq_ok {i : Nat} {v : Value} {b : Bytes} (h : (variant i v).encode = .ok b) :
    ∃ c, v.encode = .ok c ∧ b = Varint.encode i ++ c := by
  obtain ⟨c, hc, h⟩ := bind_eq_ok_iff.mp h
  cases h
  exact ⟨c, hc, rfl⟩

end Value

end SnapStore
