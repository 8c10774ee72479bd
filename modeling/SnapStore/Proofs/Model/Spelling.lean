import SnapStore.Proofs.Model.RoundTrip
import SnapStore.Proofs.Model.Size

namespace SnapStore

/-!
# What is read

A reader accepts more than is ever written: numbers with padding, characters with more bytes behind
them, maps in any order and with repeated keys.  Whatever it accepts, it makes a value of the schema, and
one that is not longer when it is written.

* `Reader.Reads r P` — what the reader `r` makes of the bytes that it takes, and how many these are.
* `Decode.reads_varint`, `Decode.reads_text`, `Decode.reads_char`, `Decode.reads_counted` — for single
  items, and for items one after another.
* `Schema.Spelled` — a value of a shape, for which so many bytes are enough.
* `Schema.reads_decodeWith`, `Layout.reads_decode` — what is read of a shape is spelled by the bytes that
  were taken.
-/

/-- A reader takes bytes off the front, and makes something of them that `P` says of it and of their
number. -/
def Reader.Reads {ε α : Type} (r : Reader ε α) (P : α → Nat → Prop) : Prop :=
  ∀ b x rest, r b = .ok (x, rest) → ∃ front, b = front ++ rest ∧ P x front.length

/-- Whoever goes on with what a reader has made goes on with what it says of that. -/
theorem Reader.Reads.of_bind {ε α β : Type} {r : Reader ε α} {P : α → Nat → Prop} (hr : r.Reads P)
    {f : α × Bytes → Except ε β} {b : Bytes} {y : β} (h : r b >>= f = .ok y) :
    ∃ x front rest, b = front ++ rest ∧ P x front.length ∧ f (x, rest) = .ok y := by
  obtain ⟨⟨x, rest⟩, hx, hf⟩ := bind_eq_ok_iff.mp h
  obtain ⟨front, hb, hP⟩ := hr b x rest hx
  exact ⟨x, front, rest, hb, hP, hf⟩

namespace Decode

/-! ### Bytes and numbers -/

theorem reads_byte : byte.Reads fun _ n => n = 1 := by
  intro b x rest h
  cases b with
  | nil => cases h
  | cons =>
    cases h
    exact ⟨[x], rfl, rfl⟩

theorem reads_take (n : Nat) : (take n).Reads fun x m => x.length = n ∧ m = n := by
  intro b x rest h
  unfold take at h
  split at h
  · rename_i hsplit
    cases h
    obtain ⟨rfl, hlen⟩ := Bytes.eq_append_of_split? hsplit
    exact ⟨x, rfl, hlen, hlen⟩
  · cases h

theorem reads_varint (w : Nat) :
    (varint w).Reads fun n m => n < Nat.pow 2 w ∧ (Varint.encode n).length ≤ m := by
  intro b n rest h
  unfold varint at h
  split at h
  · rename_i hr
    cases h
    obtain ⟨hlt, front, rfl, hlen⟩ := Varint.of_decode hr
    exact ⟨front, rfl, hlt, hlen⟩
  · cases h
  · cases h

/-- A byte that must be 0 or 1, and otherwise makes an error, whichever. -/
theorem reads_flag (e : DecodeError) : Reader.Reads (fun b => do
    let (x, b) ← byte b
    if x = 0 then pure (false, b) else if x = 1 then pure (true, b) else throw e) fun _ n => n = 1 := by
  intro b x rest h
  obtain ⟨y, front, b₁, rfl, hlen, h₁⟩ := reads_byte.of_bind h
  simp only at h₁
  split at h₁
  · cases h₁
    exact ⟨front, rfl, hlen⟩
  · split at h₁
    · cases h₁
      exact ⟨front, rfl, hlen⟩
    · cases h₁

theorem reads_bool : bool.Reads fun _ n => n = 1 := reads_flag .badBool

theorem reads_presence : presence.Reads fun _ n => n = 1 := reads_flag .badOption

theorem reads_nat (w : Width) :
    (nat w).Reads fun n m => n < Nat.pow 2 w.bits ∧ (Value.nat w n).size ≤ m := by
  intro b n rest h
  cases w with
  | w8 =>
    obtain ⟨x, front, b₁, rfl, hlen, h₁⟩ := reads_byte.of_bind h
    cases h₁
    exact ⟨front, rfl, x.toNat_lt, Nat.le_of_eq hlen.symm⟩
  | w16 | w32 | w64 | w128 => exact reads_varint _ _ _ _ h

/-- A number that fits a width in zigzag order is within that width. -/
theorem unzigzag_bounds {w : Width} {n : Nat} (h : n < Nat.pow 2 w.bits) :
    -(Nat.pow 2 (w.bits - 1) : Int) ≤ Varint.unzigzag n ∧
      Varint.unzigzag n < (Nat.pow 2 (w.bits - 1) : Int) := by
  have hpow : Nat.pow 2 w.bits = 2 * Nat.pow 2 (w.bits - 1) := by cases w <;> rfl
  rw [hpow] at h
  generalize Nat.pow 2 (w.bits - 1) = p at h
  unfold Varint.unzigzag
  split
  · rw [Int.ofNat_eq_natCast]
    omega
  · omega

theorem reads_int (w : Width) :
    (int w).Reads fun i m => (-(Nat.pow 2 (w.bits - 1) : Int) ≤ i ∧
      i < (Nat.pow 2 (w.bits - 1) : Int)) ∧ (Value.int w i).size ≤ m := by
  intro b i rest h
  cases w with
  | w8 =>
    obtain ⟨x, front, b₁, rfl, hlen, h₁⟩ := reads_byte.of_bind h
    cases h₁
    exact ⟨front, rfl, ⟨Int8.le_toInt _, Int8.toInt_lt _⟩, Nat.le_of_eq hlen.symm⟩
  | w16 | w32 | w64 | w128 =>
    obtain ⟨n, front, b₁, rfl, ⟨hlt, hlen⟩, h₁⟩ := (reads_varint _).of_bind h
    cases h₁
    refine ⟨front, rfl, unzigzag_bounds hlt, ?_⟩
    simpa [Value.size, Value.encode] using hlen

/-! ### Text -/

theorem reads_lengthPrefixed : lengthPrefixed.Reads fun x n =>
    x.length < Nat.pow 2 64 ∧ (Varint.encode x.length ++ x).length ≤ n := by
  intro b x rest h
  obtain ⟨n, front, b₁, rfl, ⟨hlt, hlen⟩, h₁⟩ := (reads_varint 64).of_bind h
  obtain ⟨front', rfl, rfl, hlen'⟩ := reads_take _ _ _ _ h₁
  refine ⟨front ++ front', (List.append_assoc _ _ _).symm, hlt, ?_⟩
  rw [List.length_append, List.length_append]
  omega

theorem reads_text : text.Reads fun s n =>
    s.utf8ByteSize < Nat.pow 2 64 ∧ (encodeText s).length ≤ n := by
  intro b s rest h
  obtain ⟨raw, front, b₁, rfl, ⟨hlt, hlen⟩, h₁⟩ := reads_lengthPrefixed.of_bind h
  simp only at h₁
  split at h₁
  · rename_i hs
    cases h₁
    have hs := Bytes.ofString_of_toString? hs
    refine ⟨front, rfl, ?_, ?_⟩
    · rw [← length_ofString, hs]
      exact hlt
    · rw [encodeText, hs]
      exact hlen
  · cases h₁

/-- The first character of a text is not longer than the text. -/
theorem utf8ByteSize_head_le {s : String} {c : Char} (h : s.toList.head? = some c) :
    c.toString.utf8ByteSize ≤ s.utf8ByteSize := by
  obtain ⟨cs, hcs⟩ := List.head?_eq_some_iff.mp h
  have hs : s = c.toString ++ String.ofList cs := by
    rw [← String.ofList_toList (s := s), hcs, String.ofList_cons]
    rfl
  rw [hs, String.utf8ByteSize_append]
  exact Nat.le_add_right _ _

theorem reads_char : char.Reads fun c n => (encodeText c.toString).length ≤ n := by
  intro b c rest h
  obtain ⟨n, front, b₁, rfl, ⟨hlt, hlen⟩, h₁⟩ := (reads_varint 64).of_bind h
  simp only at h₁
  split at h₁
  · cases h₁
  obtain ⟨raw, front', b₂, rfl, ⟨rfl, hlen'⟩, h₂⟩ := (reads_take _).of_bind h₁
  simp only at h₂
  split at h₂
  · rename_i c' hc
    cases h₂
    obtain ⟨s, hs, hhead⟩ := Option.bind_eq_some_iff.mp hc
    refine ⟨front ++ front', (List.append_assoc _ _ _).symm, ?_⟩
    -- only the first character of the text is kept
    have hle := utf8ByteSize_head_le hhead
    rw [← length_ofString, ← length_ofString, Bytes.ofString_of_toString? hs] at hle
    have hmono := Varint.length_encode_mono hle
    simp only [encodeText, List.length_append]
    omega
  · cases h₂

/-! ### Items one after another -/

variable {α : Type} {item : Reader DecodeError α} {P : α → Prop} {weight : α → Nat}

theorem reads_items (h : item.Reads fun x n => P x ∧ weight x ≤ n) (n : Nat) (acc : List α) :
    (items item n acc).Reads fun xs m => ∃ ys, xs = acc.reverse ++ ys ∧ ys.length = n ∧
      (∀ y ∈ ys, P y) ∧ (ys.map weight).sum ≤ m := by
  induction n generalizing acc with
  | zero =>
    intro b xs rest hr
    cases hr
    exact ⟨[], rfl, [], by simp⟩
  | succ n ih =>
    intro b xs rest hr
    simp only [items] at hr
    split at hr
    · rename_i x b₁ hx
      obtain ⟨front, rfl, hP, hsize⟩ := h _ _ _ hx
      obtain ⟨front', rfl, ys, rfl, rfl, hall, hsum⟩ := ih (x :: acc) _ _ _ hr
      refine ⟨front ++ front', (List.append_assoc _ _ _).symm, x :: ys, by simp, rfl, ?_, ?_⟩
      · exact List.forall_mem_cons.mpr ⟨hP, hall⟩
      · rw [List.map_cons, List.sum_cons, List.length_append]
        exact Nat.add_le_add hsize hsum
    · cases hr

theorem reads_counted (h : item.Reads fun x n => P x ∧ weight x ≤ n) :
    (counted item).Reads fun xs n => xs.length < Nat.pow 2 64 ∧ (∀ x ∈ xs, P x) ∧
      (Varint.encode xs.length).length + (xs.map weight).sum ≤ n := by
  intro b xs rest hr
  obtain ⟨n, front, b₁, rfl, ⟨hlt, hlen⟩, h₁⟩ := (reads_varint 64).of_bind hr
  obtain ⟨front', rfl, ys, rfl, rfl, hall, hsum⟩ := reads_items h n [] _ _ _ h₁
  refine ⟨front ++ front', (List.append_assoc _ _ _).symm, hlt, hall, ?_⟩
  rw [List.length_append]
  exact Nat.add_le_add hlen hsum

end Decode

namespace Schema

variable {defs : List Schema} {self : Nat → Reader DecodeError Value}

/-- A value of a shape for which so many bytes are enough. -/
def Spelled (defs : List Schema) (s : Schema) (v : Value) (n : Nat) : Prop :=
  Admits defs s v ∧ v.size ≤ n

theorem reads_entry {key value : Reader DecodeError Value} {k s : Schema}
    (hkey : key.Reads (Spelled defs k)) (hvalue : value.Reads (Spelled defs s)) :
    (Decode.entry key value).Reads fun e n =>
      (Admits defs k e.1 ∧ Admits defs s e.2) ∧ Value.entrySize e ≤ n := by
  intro b e rest h
  obtain ⟨k, front, b₁, rfl, ⟨hadmits, hsize⟩, h₁⟩ := hkey.of_bind h
  obtain ⟨v, front', b₂, rfl, ⟨hadmits', hsize'⟩, h₂⟩ := hvalue.of_bind h₁
  cases h₂
  refine ⟨front ++ front', (List.append_assoc _ _ _).symm, ⟨hadmits, hadmits'⟩, ?_⟩
  rw [List.length_append]
  exact Nat.add_le_add hsize hsize'

/-- The map of entries that were read is spelled by them, in whatever order they were. -/
theorem spelled_mapOf {k s : Schema} {fs : List (Value × Value)} {n : Nat}
    (bound : fs.length < Nat.pow 2 64) (hfs : ∀ f ∈ fs, Admits defs k f.1 ∧ Admits defs s f.2)
    (hsize : (Varint.encode fs.length).length + (fs.map Value.entrySize).sum ≤ n) :
    Spelled defs (.map k s) (Value.mapOf fs) n := by
  obtain ⟨es, hes, ascending, hdrawn, hlen, hsum⟩ := Value.exists_mapOf_eq fs
  rw [hes]
  refine ⟨.map (Nat.lt_of_le_of_lt hlen bound) ?_ ?_ ascending, ?_⟩
  · intro e he
    obtain ⟨f, hf, heq⟩ := List.mem_map.mp (hdrawn e he).1
    exact heq ▸ (hfs f hf).1
  · intro e he
    obtain ⟨f, hf, heq⟩ := List.mem_map.mp (hdrawn e he).2
    exact heq ▸ (hfs f hf).2
  · have hmono := Varint.length_encode_mono hlen
    have hmap := Value.size_map_le es
    omega

mutual

/-- **What is read is spelled by what was taken.** -/
theorem reads_decodeWith (hself : ∀ i, (self i).Reads (Spelled defs (.ref i))) (s : Schema) :
    (s.decodeWith self).Reads (Spelled defs s) := by
  intro b v rest h
  match s with
  | .unit =>
    cases h
    exact ⟨[], rfl, .unit, Nat.le_refl 0⟩
  | .bool =>
    obtain ⟨x, front, b₁, rfl, hlen, h₁⟩ := Decode.reads_bool.of_bind h
    cases h₁
    exact ⟨front, rfl, .bool, Nat.le_of_eq hlen.symm⟩
  | .nat w =>
    obtain ⟨x, front, b₁, rfl, ⟨bound, hsize⟩, h₁⟩ := (Decode.reads_nat _).of_bind h
    cases h₁
    exact ⟨front, rfl, .nat bound, hsize⟩
  | .int w =>
    obtain ⟨x, front, b₁, rfl, ⟨⟨lower, upper⟩, hsize⟩, h₁⟩ := (Decode.reads_int _).of_bind h
    cases h₁
    exact ⟨front, rfl, .int lower upper, hsize⟩
  | .float32 =>
    obtain ⟨x, front, b₁, rfl, ⟨-, hlen⟩, h₁⟩ := (Decode.reads_take _).of_bind h
    cases h₁
    exact ⟨front, rfl, .float32, by rw [hlen]; exact Nat.le_refl 4⟩
  | .float64 =>
    obtain ⟨x, front, b₁, rfl, ⟨-, hlen⟩, h₁⟩ := (Decode.reads_take _).of_bind h
    cases h₁
    exact ⟨front, rfl, .float64, by rw [hlen]; exact Nat.le_refl 8⟩
  | .char =>
    obtain ⟨x, front, b₁, rfl, hlen, h₁⟩ := Decode.reads_char.of_bind h
    cases h₁
    exact ⟨front, rfl, .char, hlen⟩
  | .string =>
    obtain ⟨x, front, b₁, rfl, ⟨bound, hlen⟩, h₁⟩ := Decode.reads_text.of_bind h
    cases h₁
    exact ⟨front, rfl, .string bound, hlen⟩
  | .option item =>
    obtain ⟨present, front, b₁, rfl, hlen, h₁⟩ := Decode.reads_presence.of_bind h
    cases present with
    | false =>
      cases h₁
      exact ⟨front, rfl, .none, Nat.le_of_eq hlen.symm⟩
    | true =>
      obtain ⟨x, front', b₂, rfl, ⟨hadmits, hsize⟩, h₂⟩ := (reads_decodeWith hself item).of_bind h₁
      cases h₂
      refine ⟨front ++ front', (List.append_assoc _ _ _).symm, .some hadmits, ?_⟩
      have hsome := Value.size_some_le x
      rw [List.length_append]
      omega
  | .seq item =>
    obtain ⟨xs, front, b₁, rfl, ⟨bound, hall, hsum⟩, h₁⟩ :=
      (Decode.reads_counted (reads_decodeWith hself item)).of_bind h
    cases h₁
    exact ⟨front, rfl, .seq bound hall, Nat.le_trans (Value.size_seq_le xs) hsum⟩
  | .stream item =>
    obtain ⟨xs, front, b₁, rfl, ⟨-, hall, -⟩, h₁⟩ :=
      (Decode.reads_counted (reads_decodeWith hself item)).of_bind h
    cases h₁
    exact ⟨front, rfl, .stream hall, Nat.zero_le _⟩
  | .map key value =>
    have hentry := reads_entry (reads_decodeWith hself key) (reads_decodeWith hself value)
    obtain ⟨fs, front, b₁, rfl, ⟨bound, hall, hsum⟩, h₁⟩ := (Decode.reads_counted hentry).of_bind h
    cases h₁
    exact ⟨front, rfl, spelled_mapOf bound hall hsum⟩
  | .tuple fields =>
    obtain ⟨vs, front, b₁, rfl, hspelled, h₁⟩ := (reads_decodeFields hself fields).of_bind h
    cases h₁
    exact ⟨front, rfl, hspelled⟩
  | .union alternatives =>
    obtain ⟨i, front, b₁, rfl, ⟨bound, hlen⟩, h₁⟩ := (Decode.reads_varint 32).of_bind h
    obtain ⟨x, front', b₂, rfl, ⟨s, at_index, hadmits, hsize⟩, h₂⟩ :=
      (reads_decodeAlternative hself alternatives i).of_bind h₁
    cases h₂
    refine ⟨front ++ front', (List.append_assoc _ _ _).symm, .variant bound at_index hadmits, ?_⟩
    have hvariant := Value.size_variant_le i x
    rw [List.length_append]
    omega
  | .ref i => exact hself i _ _ _ h
termination_by structural s

theorem reads_decodeFields (hself : ∀ i, (self i).Reads (Spelled defs (.ref i))) (ss : List Schema) :
    (decodeFields self ss).Reads fun vs n => Spelled defs (.tuple ss) (.tuple vs) n := by
  intro b vs rest h
  match ss with
  | [] =>
    cases h
    exact ⟨[], rfl, .emptyTuple, Nat.le_refl 0⟩
  | s :: ss =>
    obtain ⟨x, front, b₁, rfl, ⟨hadmits, hsize⟩, h₁⟩ := (reads_decodeWith hself s).of_bind h
    obtain ⟨xs, front', b₂, rfl, ⟨hadmits', hsize'⟩, h₂⟩ := (reads_decodeFields hself ss).of_bind h₁
    cases h₂
    refine ⟨front ++ front', (List.append_assoc _ _ _).symm, .consTuple hadmits hadmits', ?_⟩
    have hcons := Value.size_cons_le x xs
    rw [List.length_append]
    omega
termination_by structural ss

theorem reads_decodeAlternative (hself : ∀ i, (self i).Reads (Spelled defs (.ref i)))
    (ss : List Schema) (i : Nat) :
    (decodeAlternative self ss i).Reads fun v n => ∃ s, ss[i]? = some s ∧ Spelled defs s v n := by
  intro b v rest h
  match ss, i with
  | [], _ => cases h
  | s :: ss, 0 =>
    obtain ⟨front, rfl, hspelled⟩ := reads_decodeWith hself s _ _ _ h
    exact ⟨front, rfl, s, rfl, hspelled⟩
  | s :: ss, i + 1 =>
    obtain ⟨front, rfl, t, at_index, hspelled⟩ := reads_decodeAlternative hself ss i _ _ _ h
    exact ⟨front, rfl, t, at_index, hspelled⟩
termination_by structural ss

end

/-- Whoever reads a definition has followed it, with one turn less left. -/
theorem exists_of_follow_eq_ok {turns i : Nat} {b : Bytes} {r : Value × Bytes}
    (h : follow defs turns i b = .ok r) :
    ∃ target t, defs[i]? = some target ∧ turns = t + 1 ∧ target.decodeWith (follow defs t) b = .ok r := by
  cases at_index : defs[i]? with
  | none =>
    simp only [follow, at_index] at h
    cases h
  | some target =>
    simp only [follow, at_index] at h
    cases turns with
    | zero => cases h
    | succ t => exact ⟨target, t, rfl, rfl, h⟩

/-- However deep definitions are followed, what is read of one is spelled by what was taken. -/
theorem reads_follow (turns i : Nat) : (follow defs turns i).Reads (Spelled defs (.ref i)) := by
  induction turns generalizing i with
  | zero =>
    intro b v rest h
    obtain ⟨_, _, -, hturns, -⟩ := exists_of_follow_eq_ok h
    cases hturns
  | succ turns ih =>
    intro b v rest h
    obtain ⟨target, t, at_index, hturns, htarget⟩ := exists_of_follow_eq_ok h
    cases hturns
    obtain ⟨front, hb, hadmits, hsize⟩ := reads_decodeWith ih target _ _ _ htarget
    exact ⟨front, hb, .ref at_index hadmits, hsize⟩

end Schema

/-- **What is read of a model type.** The value is one of the type, and is not longer when it is written
than the bytes that it was read from. -/
theorem Layout.reads_decode (l : Layout) : l.decode.Reads fun v n => l.Admits v ∧ v.size ≤ n := by
  intro b v rest h
  exact Schema.reads_decodeWith (Schema.reads_follow _) l.root _ _ _ h

end SnapStore
