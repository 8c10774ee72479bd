import SnapStore.Proofs.Model.Order
import SnapStore.Proofs.Model.Primitives
import Mathlib.Data.Finset.Card
import Mathlib.Data.Finset.Range

namespace SnapStore

open Relation

/-!
# Reading models back

What is written of a value is read back as that value, and what follows is left alone, also where
the type of the value occurs inside itself.

* `Schema.Inside` — a shape stands inside another one with no byte in front of it.
* `Schema.Admits.acc_inside` — a shape that has a value does not stand inside itself.
* `Schema.takes_decodeWith` — a reader of a shape takes what is written of a value of that shape, as
  soon as it may follow as many definitions as there can be in so many bytes.
* `Layout.decode_append` — what is written of a value of a model type is read back, whatever follows.
-/

namespace Schema

variable {defs : List Schema}

/-! ### Shapes at the front of other shapes -/

/-- One shape stands inside another one with no byte in front of it. -/
inductive Inside (defs : List Schema) : Schema → Schema → Prop
  | head {s : Schema} {ss : List Schema} : Inside defs s (.tuple (s :: ss))
  | tail {s : Schema} {ss : List Schema} : Inside defs (.tuple ss) (.tuple (s :: ss))
  | target {i : Nat} {s : Schema} (at_index : defs[i]? = some s) : Inside defs s (.ref i)

/-- **Values are finite.** A shape that has a value does not stand inside itself, however many
definitions are in between. -/
theorem Admits.acc_inside {s : Schema} {v : Value} (h : Admits defs s v) : Acc (Inside defs) s := by
  induction h with
  | consTuple _ _ head tail =>
    refine ⟨_, ?_⟩
    intro t ht
    cases ht with
    | head => exact head
    | tail => exact tail
  | ref at_index _ target =>
    refine ⟨_, ?_⟩
    intro t ht
    cases ht with
    | target at_index' =>
      rw [at_index] at at_index'
      cases at_index'
      exact target
  | _ => exact ⟨_, fun t ht => by cases ht⟩

theorem not_transGen_self_of_acc {s : Schema} (h : Acc (Inside defs) s) :
    ¬ TransGen (Inside defs) s s := by
  have htrans := h.transGen
  clear h
  induction htrans with
  | intro s _ ih => exact fun hs => ih s hs hs

/-- Only a definition that exists has something inside it. -/
theorem lt_length_of_inside {i : Nat} {s : Schema} (h : TransGen (Inside defs) s (.ref i)) :
    i < defs.length := by
  have hstep : ∀ t, Inside defs t (.ref i) → i < defs.length := by
    intro t ht
    cases ht with
    | target at_index => exact (List.getElem?_eq_some_iff.mp at_index).1
  cases h with
  | single h => exact hstep _ h
  | tail _ h => exact hstep _ h

/-! ### Readers of the parts of a shape -/

variable {self : Nat → Reader DecodeError Value} {b c : Bytes}

theorem takes_option {item : Schema} {v : Value} (h : (item.decodeWith self).Takes b v) :
    ((Schema.option item).decodeWith self).Takes (1 :: b) (.some v) := by
  intro rest
  have h1 : Decode.presence (1 :: (b ++ rest)) = .ok (true, b ++ rest) := rfl
  simp only [decodeWith, List.cons_append, h1, h rest, bind, Except.bind, pure, Except.pure, if_true]

theorem takes_fields {ss : List Schema} {vs : List Value}
    (h : ((Schema.tuple ss).decodeWith self).Takes b (.tuple vs)) :
    (decodeFields self ss).Takes b vs := by
  intro rest
  have h := h rest
  simp only [decodeWith, bind, Except.bind, pure, Except.pure] at h
  split at h
  · cases h
  · cases h; assumption

theorem takes_cons_fields {s : Schema} {ss : List Schema} {v : Value} {vs : List Value}
    (head : (s.decodeWith self).Takes b v)
    (tail : ((Schema.tuple ss).decodeWith self).Takes c (.tuple vs)) :
    ((Schema.tuple (s :: ss)).decodeWith self).Takes (b ++ c) (.tuple (v :: vs)) := by
  intro rest
  simp only [decodeWith, decodeFields, List.append_assoc, head (c ++ rest), takes_fields tail rest,
    bind, Except.bind, pure, Except.pure]

theorem decodeAlternative_of_getElem? {ss : List Schema} {i : Nat} {s : Schema}
    (h : ss[i]? = some s) : decodeAlternative self ss i = s.decodeWith self := by
  induction ss generalizing i with
  | nil => simp at h
  | cons t ss ih =>
    cases i with
    | zero => simp at h; rw [decodeAlternative, h]
    | succ i => exact ih (by simpa using h)

theorem takes_union {ss : List Schema} {i : Nat} {s : Schema} {v : Value} (bound : i < Nat.pow 2 32)
    (at_index : ss[i]? = some s) (h : (s.decodeWith self).Takes b v) :
    ((Schema.union ss).decodeWith self).Takes (Varint.encode i ++ b) (.variant i v) := by
  intro rest
  simp only [decodeWith, List.append_assoc, Decode.takes_varint bound _,
    decodeAlternative_of_getElem? at_index, h rest, bind, Except.bind, pure, Except.pure]

theorem takes_entry {key value : Reader DecodeError Value} {k v : Value} (hk : key.Takes b k)
    (hv : value.Takes c v) : (Decode.entry key value).Takes (b ++ c) (k, v) := by
  intro rest
  simp only [Decode.entry, List.append_assoc, hk (c ++ rest), hv rest, bind, Except.bind, pure,
    Except.pure]

/-! ### Following definitions -/

/-- The reader of the definitions, where each of them can be followed so many turns deep. -/
def follow (defs : List Schema) (turns : Nat) (i : Nat) : Reader DecodeError Value :=
  match defs[i]? with
  | some target => decodeAt defs turns target
  | none => fun _ => .error .unknownVariant

theorem decodeAt_succ (turns : Nat) (s : Schema) :
    decodeAt defs (turns + 1) s = s.decodeWith (follow defs turns) := rfl

/-- The turns that suffice for so many bytes, after some definitions have been followed without reading
anything: each of the others once, and between two bytes every definition once. -/
def turnsFor (defs : List Schema) (seen : Finset Nat) (bytes : Nat) : Nat :=
  defs.length - seen.card + defs.length * bytes

theorem turnsFor_le {seen : Finset Nat} {m n : Nat} (h : m ≤ n) :
    turnsFor defs seen m ≤ turnsFor defs seen n :=
  Nat.add_le_add_left (Nat.mul_le_mul_left _ h) _

/-- A byte makes up for all definitions that have been followed. -/
theorem turnsFor_empty_le {seen : Finset Nat} {m n : Nat} (h : m < n) :
    turnsFor defs ∅ m ≤ turnsFor defs seen n := by
  have hmul : defs.length * (m + 1) ≤ defs.length * n := Nat.mul_le_mul_left _ h
  rw [Nat.mul_add, Nat.mul_one] at hmul
  simp only [turnsFor, Finset.card_empty]
  omega

/-- Following one more definition takes one turn. -/
theorem turnsFor_insert_lt {seen : Finset Nat} {i n : Nat} (hi : i ∉ seen)
    (hseen : ∀ j ∈ insert i seen, j < defs.length) :
    turnsFor defs (insert i seen) n < turnsFor defs seen n := by
  have hcard : (insert i seen).card ≤ defs.length := by
    rw [← Finset.card_range defs.length]
    exact Finset.card_le_card fun j hj => Finset.mem_range.mpr (hseen j hj)
  rw [Finset.card_insert_of_notMem hi] at hcard
  simp only [turnsFor, Finset.card_insert_of_notMem hi]
  omega

/-! ### The round trip -/

/-- **Values are read back.** What is written of a value of a shape is taken back as that value, if
enough turns are left.  The definitions in `seen` have been followed to the shape without reading
anything, so that none of them is met again before the next byte. -/
theorem takes_decodeWith {s : Schema} {v : Value} (h : Admits defs s v) {b : Bytes}
    (hb : v.encode = .ok b) {seen : Finset Nat}
    (hseen : ∀ i ∈ seen, TransGen (Inside defs) s (.ref i)) {turns : Nat}
    (hturns : turnsFor defs seen b.length ≤ turns) :
    (s.decodeWith (follow defs turns)).Takes b v := by
  -- on the derivation, for any definitions that have been followed and any turns that suffice
  induction h generalizing b seen turns with
  | unit => cases hb; exact fun _ => rfl
  | @bool x => cases hb; cases x <;> exact fun _ => rfl
  | nat bound =>
    intro rest
    simp only [decodeWith, Decode.takes_nat bound hb rest, bind, Except.bind, pure, Except.pure]
  | int lower upper =>
    intro rest
    simp only [decodeWith, Decode.takes_int lower upper hb rest, bind, Except.bind, pure, Except.pure]
  | @float32 bits =>
    cases hb
    intro rest
    have hbits : bits.toNat < Nat.pow 256 4 := bits.toNat_lt
    simp only [decodeWith, Decode.takes_ofNatLE 4 _ rest, Bytes.toNatLE_ofNatLE hbits,
      UInt32.ofNat_toNat, bind, Except.bind, pure, Except.pure]
  | @float64 bits =>
    cases hb
    intro rest
    have hbits : bits.toNat < Nat.pow 256 8 := bits.toNat_lt
    simp only [decodeWith, Decode.takes_ofNatLE 8 _ rest, Bytes.toNatLE_ofNatLE hbits,
      UInt64.ofNat_toNat, bind, Except.bind, pure, Except.pure]
  | char =>
    cases hb
    intro rest
    simp only [decodeWith, Decode.takes_char _ rest, bind, Except.bind, pure, Except.pure]
  | string bound =>
    cases hb
    intro rest
    simp only [decodeWith, Decode.takes_text bound rest, bind, Except.bind, pure, Except.pure]
  | none => cases hb; exact fun _ => rfl
  | some _ item =>
    obtain ⟨c, hc, rfl⟩ := Value.encode_some_eq_ok hb
    exact takes_option (item hc (by simp) (Nat.le_trans (turnsFor_empty_le (by simp)) hturns))
  | @seq s vs bound _ items =>
    obtain ⟨bs, hbs, rfl⟩ := Value.encode_seq_eq_ok hb
    intro rest
    -- every element is shorter than the sequence, which has its length in front of it
    have hitem : ∀ v ∈ vs, ∀ c ∈ bs, v.encode = .ok c →
        (s.decodeWith (follow defs turns)).Takes c v := by
      intro v hv c hc hvc
      refine items v hv hvc (by simp) (Nat.le_trans (turnsFor_empty_le ?_) hturns)
      exact Value.length_lt_of_mem_flatten hc
    simp only [decodeWith, Decode.takes_counted bound hbs hitem rest, bind, Except.bind, pure,
      Except.pure]
  | stream => simp [Value.encode] at hb
  | @map k s es bound _ _ ascending keys values =>
    obtain ⟨bs, hbs, rfl⟩ := Value.encode_map_eq_ok hb
    intro rest
    have hentry : ∀ e ∈ es, ∀ c ∈ bs, Value.encodeEntry e = .ok c →
        (Decode.entry (k.decodeWith (follow defs turns)) (s.decodeWith (follow defs turns))).Takes
          c e := by
      intro e he c hc hec
      obtain ⟨c₁, c₂, hk, hv, rfl⟩ := Value.encodeEntry_eq_ok hec
      have hlen := Value.length_lt_of_mem_flatten (n := es.length) hc
      rw [List.length_append] at hlen
      exact takes_entry
        (keys e he hk (by simp) (Nat.le_trans (turnsFor_empty_le (by omega)) hturns))
        (values e he hv (by simp) (Nat.le_trans (turnsFor_empty_le (by omega)) hturns))
    simp only [decodeWith, Decode.takes_counted bound hbs hentry rest,
      Value.mapOf_of_ascending ascending, bind, Except.bind, pure, Except.pure]
  | emptyTuple => cases hb; exact fun _ => rfl
  | consTuple _ _ head tail =>
    obtain ⟨c₁, c₂, h₁, h₂, rfl⟩ := Value.encode_cons_eq_ok hb
    rw [List.length_append] at hturns
    -- the parts of a tuple may be as long as the tuple, but stand inside it
    exact takes_cons_fields
      (head h₁ (fun i hi => .trans (.single .head) (hseen i hi))
        (Nat.le_trans (turnsFor_le (by omega)) hturns))
      (tail h₂ (fun i hi => .trans (.single .tail) (hseen i hi))
        (Nat.le_trans (turnsFor_le (by omega)) hturns))
  | @variant ss i _ _ bound at_index _ payload =>
    obtain ⟨c, hc, rfl⟩ := Value.encode_variant_eq_ok hb
    -- the number of the alternative takes at least one byte
    have hlt : c.length < (Varint.encode i ++ c).length := by
      have hpos := Varint.length_encode_pos i
      rw [List.length_append]
      omega
    exact takes_union bound at_index
      (payload hc (by simp) (Nat.le_trans (turnsFor_empty_le hlt) hturns))
  | @ref i s v at_index target ih =>
    -- Had `i` been followed before, the shape would stand inside itself.
    have hi : i ∉ seen := fun hmem =>
      not_transGen_self_of_acc (Admits.ref at_index target).acc_inside (hseen i hmem)
    have hseen' : ∀ j ∈ insert i seen, TransGen (Inside defs) s (.ref j) := by
      intro j hj
      have hstep : TransGen (Inside defs) s (.ref i) := .single (.target at_index)
      rcases Finset.mem_insert.mp hj with rfl | hj
      · exact hstep
      · exact hstep.trans (hseen j hj)
    have hlt := turnsFor_insert_lt (n := b.length) hi fun j hj => lt_length_of_inside (hseen' j hj)
    obtain ⟨t, rfl⟩ : ∃ t, turns = t + 1 := ⟨turns - 1, by omega⟩
    have htarget : (s.decodeWith (follow defs t)).Takes b v := ih hb hseen' (by omega)
    intro rest
    simp only [decodeWith, follow, at_index, decodeAt_succ]
    exact htarget rest

end Schema

/-- **Models are read back.** What is written of a value of a model type is taken back as that value,
and what follows is left alone. -/
theorem Layout.decode_append {l : Layout} {v : Value} (h : l.Admits v) {b : Bytes}
    (hb : v.encode = .ok b) (rest : Bytes) : l.decode (b ++ rest) = .ok (v, rest) := by
  have hturns : Schema.turnsFor l.defs ∅ b.length ≤ l.defs.length * ((b ++ rest).length + 1) := by
    have hmul : l.defs.length * b.length ≤ l.defs.length * (b ++ rest).length :=
      Nat.mul_le_mul_left _ (by simp)
    rw [Nat.mul_add, Nat.mul_one]
    simp only [Schema.turnsFor, Finset.card_empty]
    omega
  rw [Layout.decode, Schema.decodeAt_succ]
  exact Schema.takes_decodeWith h hb (fun i hi => absurd hi (Finset.notMem_empty i)) hturns rest

end SnapStore
