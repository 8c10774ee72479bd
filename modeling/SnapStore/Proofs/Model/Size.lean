import SnapStore.Proofs.Model.Order
import SnapStore.Proofs.Model.Primitives
import Mathlib.Algebra.GroupWithZero.Nat

namespace SnapStore

/-!
# The size of the binary form

* `Varint.of_decode` — a number that is read fits its width, and is not written longer.
* `Value.size` — the number of bytes that are written of a value.
* `Value.size_map_le`, `Value.size_cons_le` and so on — no shape takes more than its parts and what
  is written in front of them.
* `Value.exists_mapOf_eq` — a map is not larger than the entries that were put into it, since it lists
  each key once.
-/

/-! ### Numbers -/

namespace Varint

/-- Larger numbers are not shorter. -/
theorem length_encode_mono {m n : Nat} (h : m ≤ n) : (encode m).length ≤ (encode n).length := by
  induction n using Nat.strongRecOn generalizing m with
  | ind n ih =>
    by_cases hm : m < 128
    · have hone : (encode m).length = 1 := by rw [encode, if_pos hm]; rfl
      rw [hone]
      exact length_encode_pos n
    · have hdigit (k : Nat) (hk : ¬ k < 128) : (encode k).length = (encode (k / 128)).length + 1 := by
        rw [encode, if_neg hk, List.length_cons]
      rw [hdigit m hm, hdigit n (by omega)]
      exact Nat.succ_le_succ (ih (n / 128) (by omega) (Nat.div_le_div_right h))

/-- One more digit in front takes at most one more byte. -/
theorem length_encode_add_le {x : Nat} (hx : x < 128) (n : Nat) :
    (encode (x + 128 * n)).length ≤ (encode n).length + 1 := by
  rw [encode]
  split
  · simp
  · have hn : (x + 128 * n) / 128 = n := by omega
    simp only [List.length_cons, hn, Nat.le_refl]

/-- A number that is read fits its width, and is not written with more bytes than were read. -/
theorem of_decode {w n : Nat} {b rest : Bytes} (h : decode w b = .ok (n, rest)) :
    n < Nat.pow 2 w ∧ ∃ front, b = front ++ rest ∧ (encode n).length ≤ front.length := by
  fun_induction decode w b generalizing n with
  | case1 => cases h
  | case2 w x b hx hw =>
    cases h
    have hone : (encode x.toNat).length = 1 := by rw [encode, if_pos hx]; rfl
    exact ⟨hw, [x], rfl, Nat.le_of_eq hone⟩
  | case3 => cases h
  | case4 => cases h
  | case5 w x b hx hw ih =>
    obtain ⟨⟨high, rest'⟩, hhigh, h⟩ := bind_eq_ok_iff.mp h
    cases h
    obtain ⟨hlt, front, rfl, hlen⟩ := ih hhigh
    refine ⟨?_, x :: front, rfl, ?_⟩
    · have hsplit : Nat.pow 2 w = 128 * Nat.pow 2 (w - 7) := by
        obtain ⟨k, rfl⟩ : ∃ k, w = 7 + k := ⟨w - 7, by omega⟩
        rw [Nat.add_sub_cancel_left]
        exact Nat.pow_add 2 7 k
      omega
    · have hadd := length_encode_add_le (Nat.mod_lt x.toNat (by omega)) high
      rw [List.length_cons]
      omega

end Varint

/-! ### Values -/

namespace Value

/-- The number of bytes that are written of a value; none if it has no binary form. -/
def size (v : Value) : Nat :=
  match v.encode with
  | .ok b => b.length
  | .error _ => 0

theorem size_of_encode {v : Value} {b : Bytes} (h : v.encode = .ok b) : v.size = b.length := by
  simp only [size, h]

/-- What bounds the binary form of a value bounds its size. -/
theorem size_le {v : Value} {n : Nat} (h : ∀ b, v.encode = .ok b → b.length ≤ n) : v.size ≤ n := by
  unfold size
  split
  · rename_i b hb
    exact h b hb
  · exact Nat.zero_le n

/-- The number of bytes that are written of an entry. -/
def entrySize (e : Value × Value) : Nat := e.1.size + e.2.size

theorem size_some_le (v : Value) : (some v).size ≤ 1 + v.size := by
  refine size_le fun b hb => ?_
  obtain ⟨c, hc, rfl⟩ := encode_some_eq_ok hb
  rw [size_of_encode hc, List.length_cons]
  omega

theorem size_variant_le (i : Nat) (v : Value) :
    (variant i v).size ≤ (Varint.encode i).length + v.size := by
  refine size_le fun b hb => ?_
  obtain ⟨c, hc, rfl⟩ := encode_variant_eq_ok hb
  simp only [size_of_encode hc, List.length_append, Nat.le_refl]

theorem size_cons_le (v : Value) (vs : List Value) :
    (tuple (v :: vs)).size ≤ v.size + (tuple vs).size := by
  refine size_le fun b hb => ?_
  obtain ⟨c, d, hc, hd, rfl⟩ := encode_cons_eq_ok hb
  simp only [size_of_encode hc, size_of_encode hd, List.length_append, Nat.le_refl]

/-- The binary forms of items are as long as the sizes of the items say. -/
theorem length_flatten_of_forall₂ {α : Type} {P : α → Bytes → Prop} {weight : α → Nat}
    (hweight : ∀ x b, P x b → b.length = weight x) {xs : List α} {bs : List Bytes}
    (h : List.Forall₂ P xs bs) : bs.flatten.length = (xs.map weight).sum := by
  induction h with
  | nil => rfl
  | cons hx _ ih =>
    rw [List.flatten_cons, List.length_append, ih, hweight _ _ hx, List.map_cons, List.sum_cons]

theorem size_seq_le (vs : List Value) :
    (seq vs).size ≤ (Varint.encode vs.length).length + (vs.map size).sum := by
  refine size_le fun b hb => ?_
  obtain ⟨bs, hbs, rfl⟩ := encode_seq_eq_ok hb
  have hitem (v : Value) (c : Bytes) (h : v.encode = .ok c) : c.length = v.size :=
    (size_of_encode h).symm
  simp only [List.length_append, length_flatten_of_forall₂ hitem hbs, Nat.le_refl]

theorem size_map_le (es : List (Value × Value)) :
    (map es).size ≤ (Varint.encode es.length).length + (es.map entrySize).sum := by
  refine size_le fun b hb => ?_
  obtain ⟨bs, hbs, rfl⟩ := encode_map_eq_ok hb
  have hentry : ∀ e c, encodeEntry e = .ok c → c.length = entrySize e := by
    intro e c h
    obtain ⟨c₁, c₂, hc₁, hc₂, rfl⟩ := encodeEntry_eq_ok h
    rw [entrySize, size_of_encode hc₁, size_of_encode hc₂, List.length_append]
  simp only [List.length_append, length_flatten_of_forall₂ hentry hbs, Nat.le_refl]

/-! ### Maps -/

/-- Whatever an entry is weighed by, a map grows by no more than the entry that is put into it. -/
theorem sum_insertEntry_le (weight : Value × Value → Nat)
    (hreplace : ∀ k l v w, weight (l, v) ≤ weight (l, w) + weight (k, v)) (k v : Value)
    (es : List (Value × Value)) :
    ((insertEntry k v es).map weight).sum ≤ (es.map weight).sum + weight (k, v) := by
  induction es with
  | nil => simp [insertEntry]
  | cons e es ih =>
    obtain ⟨l, w⟩ := e
    have hold := hreplace k l v w
    rw [insertEntry]
    split
    all_goals
      simp only [List.map_cons, List.sum_cons]
      omega

theorem sum_foldl_insertEntry_le (weight : Value × Value → Nat)
    (hreplace : ∀ k l v w, weight (l, v) ≤ weight (l, w) + weight (k, v))
    (es fs : List (Value × Value)) :
    ((fs.foldl (fun es (k, v) => insertEntry k v es) es).map weight).sum ≤
      (es.map weight).sum + (fs.map weight).sum := by
  induction fs generalizing es with
  | nil => simp
  | cons f fs ih =>
    obtain ⟨k, v⟩ := f
    have hstep := sum_insertEntry_le weight hreplace k v es
    calc
      _ ≤ ((insertEntry k v es).map weight).sum + (fs.map weight).sum := ih _
      _ ≤ _ := by
        simp only [List.map_cons, List.sum_cons]
        omega

/-- The keys and the values of the entries are those of other entries. -/
def DrawnFrom (fs es : List (Value × Value)) : Prop :=
  ∀ e ∈ es, e.1 ∈ fs.map Prod.fst ∧ e.2 ∈ fs.map Prod.snd

theorem drawnFrom_insertEntry {f : Value × Value} {fs es : List (Value × Value)} (hf : f ∈ fs)
    (h : DrawnFrom fs es) : DrawnFrom fs (insertEntry f.1 f.2 es) := by
  have hkey : f.1 ∈ fs.map Prod.fst := List.mem_map_of_mem hf
  have hvalue : f.2 ∈ fs.map Prod.snd := List.mem_map_of_mem hf
  exact forall_mem_insertEntry ⟨hkey, hvalue⟩ (fun _ _ h => ⟨h.1, hvalue⟩) h

/-- **Maps are put in order.** The map that results from inserting entries lists keys and values of
these entries by ascending key, and is no larger. -/
theorem exists_mapOf_eq (fs : List (Value × Value)) :
    ∃ es, mapOf fs = .map es ∧ Ascending es ∧ DrawnFrom fs es ∧ es.length ≤ fs.length ∧
      (es.map entrySize).sum ≤ (fs.map entrySize).sum := by
  refine ⟨_, rfl, ?_, ?_, ?_, ?_⟩
  · exact List.foldlRecOn fs _ List.Pairwise.nil fun es h _ _ => ascending_insertEntry h
  · exact List.foldlRecOn (motive := DrawnFrom fs) fs _ (fun _ h => absurd h List.not_mem_nil)
      fun es h _ hf => drawnFrom_insertEntry hf h
  · have hcount := sum_foldl_insertEntry_le (fun _ => 1) (by simp) [] fs
    simpa using hcount
  · have hreplace (k l v w : Value) : entrySize (l, v) ≤ entrySize (l, w) + entrySize (k, v) := by
      simp only [entrySize]
      omega
    simpa using sum_foldl_insertEntry_le entrySize hreplace [] fs

end Value

end SnapStore
