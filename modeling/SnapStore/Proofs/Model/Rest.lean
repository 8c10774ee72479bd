import SnapStore.Proofs.Model.Turns

namespace SnapStore

/-!
# What follows a value

What is read does not depend on the bytes behind it, of which a reader could see that they are there: the
number of turns of `Layout.decode` is counted by them, but never decides.

* `Reader.LeavesRest` — whatever a reader makes of bytes, it makes of them with others behind them.
* `Schema.leavesRest_decodeWith`, `Layout.leavesRest_decode` — the readers of shapes and of model types.
-/

/-- What is read is read as well with more bytes behind it, and these are left alone. -/
def Reader.LeavesRest {ε α : Type} (r : Reader ε α) : Prop :=
  ∀ b x rest, r b = .ok (x, rest) → ∀ more, r (b ++ more) = .ok (x, rest ++ more)

namespace Reader

variable {ε α β : Type}

theorem leavesRest_pure (x : α) : LeavesRest fun b => (.ok (x, b) : Except ε (α × Bytes)) := by
  intro b y rest h more
  cases h
  rfl

theorem leavesRest_throw (e : ε) : LeavesRest fun _ => (.error e : Except ε (α × Bytes)) := by
  intro b y rest h
  cases h

/-- One step after another leaves the rest alone if both do. -/
theorem LeavesRest.bind {r : Reader ε α} (hr : r.LeavesRest) {f : α × Bytes → Except ε (β × Bytes)}
    (hf : ∀ x, LeavesRest fun b => f (x, b)) : LeavesRest fun b => r b >>= f := by
  intro b y rest h more
  obtain ⟨⟨x, mid⟩, hx, hy⟩ := bind_eq_ok_iff.mp h
  show (r (b ++ more) >>= f) = _
  rw [hr b x mid hx more]
  exact hf x mid y rest hy more

end Reader

open Reader

/-! ### Numbers and texts -/

theorem Varint.leavesRest_decode (w : Nat) : LeavesRest (Varint.decode w) := by
  intro b n rest h more
  fun_induction Varint.decode w b generalizing n with
  | case1 => cases h
  | case2 w x b hx hw =>
    cases h
    simp only [List.cons_append, Varint.decode, if_pos hx, if_pos hw]
  | case3 => cases h
  | case4 => cases h
  | case5 w x b hx hw ih =>
    obtain ⟨⟨high, mid⟩, hhigh, h⟩ := bind_eq_ok_iff.mp h
    cases h
    simp only [List.cons_append, Varint.decode, if_neg hx, if_neg hw, ih high hhigh]
    rfl

namespace Decode

theorem leavesRest_byte : byte.LeavesRest := by
  intro b x rest h more
  cases b with
  | nil => cases h
  | cons =>
    cases h
    rfl

theorem leavesRest_take (n : Nat) : (take n).LeavesRest := by
  intro b x rest h more
  obtain ⟨front, rfl, hlength, -⟩ := reads_take n b x rest h
  have hfront : front = x := by
    unfold take at h
    split at h
    · rename_i hsplit
      cases h
      exact (List.append_inj_left' (Bytes.eq_append_of_split? hsplit).1 rfl)
    · cases h
  subst hfront
  rw [take, List.append_assoc, ← hlength, Bytes.split?_append]

theorem leavesRest_varint (w : Nat) : (varint w).LeavesRest := by
  intro b n rest h more
  unfold varint at h ⊢
  split at h
  · rename_i hr
    cases h
    rw [Varint.leavesRest_decode w _ _ _ hr more]
  · cases h
  · cases h

theorem leavesRest_lengthPrefixed : lengthPrefixed.LeavesRest :=
  (leavesRest_varint 64).bind fun n => leavesRest_take n

/-- What is checked behind a reader does not see the rest. -/
theorem leavesRest_ite {ε α : Type} {c : Prop} [Decidable c] {r r' : Reader ε α} (hr : r.LeavesRest)
    (hr' : r'.LeavesRest) : LeavesRest fun b => if c then r b else r' b := by
  split
  · exact hr
  · exact hr'

theorem leavesRest_bool : bool.LeavesRest :=
  leavesRest_byte.bind fun _ =>
    leavesRest_ite (leavesRest_pure _) (leavesRest_ite (leavesRest_pure _) (leavesRest_throw _))

theorem leavesRest_presence : presence.LeavesRest :=
  leavesRest_byte.bind fun _ =>
    leavesRest_ite (leavesRest_pure _) (leavesRest_ite (leavesRest_pure _) (leavesRest_throw _))

theorem leavesRest_nat (w : Width) : (nat w).LeavesRest := by
  cases w with
  | w8 => exact leavesRest_byte.bind fun _ => leavesRest_pure _
  | _ => exact leavesRest_varint _

theorem leavesRest_int (w : Width) : (int w).LeavesRest := by
  cases w with
  | w8 => exact leavesRest_byte.bind fun _ => leavesRest_pure _
  | _ => exact (leavesRest_varint _).bind fun _ => leavesRest_pure _

theorem leavesRest_text : text.LeavesRest := by
  refine leavesRest_lengthPrefixed.bind fun raw => ?_
  cases h : Bytes.toString? raw with
  | none =>
    simp only [h]
    exact leavesRest_throw _
  | some s =>
    simp only [h]
    exact leavesRest_pure s

theorem leavesRest_char : char.LeavesRest := by
  refine (leavesRest_varint 64).bind fun n => leavesRest_ite (leavesRest_throw _) ?_
  refine (leavesRest_take n).bind fun raw => ?_
  cases h : (Bytes.toString? raw).bind (·.toList.head?) with
  | none =>
    simp only [h]
    exact leavesRest_throw _
  | some c =>
    simp only [h]
    exact leavesRest_pure c

theorem leavesRest_items {α : Type} {item : Reader DecodeError α} (h : item.LeavesRest) (n : Nat)
    (acc : List α) : (items item n acc).LeavesRest := by
  induction n generalizing acc with
  | zero => exact leavesRest_pure _
  | succ n ih =>
    intro b xs rest hread more
    simp only [items] at hread ⊢
    split at hread
    · rename_i x mid hx
      rw [h b x mid hx more]
      exact ih (x :: acc) mid xs rest hread more
    · cases hread

theorem leavesRest_counted {α : Type} {item : Reader DecodeError α} (h : item.LeavesRest) :
    (counted item).LeavesRest :=
  (leavesRest_varint 64).bind fun n => leavesRest_items h n []

theorem leavesRest_entry {key value : Reader DecodeError Value} (hkey : key.LeavesRest)
    (hvalue : value.LeavesRest) : (entry key value).LeavesRest :=
  hkey.bind fun _ => hvalue.bind fun _ => leavesRest_pure _

end Decode

/-! ### Shapes -/

namespace Schema

variable {self : Nat → Reader DecodeError Value}

mutual

/-- **A shape leaves the rest alone** as its definitions do. -/
theorem leavesRest_decodeWith (hself : ∀ i, (self i).LeavesRest) (s : Schema) :
    (s.decodeWith self).LeavesRest := by
  match s with
  | .unit => exact leavesRest_pure _
  | .bool => exact Decode.leavesRest_bool.bind fun _ => leavesRest_pure _
  | .nat w => exact (Decode.leavesRest_nat w).bind fun _ => leavesRest_pure _
  | .int w => exact (Decode.leavesRest_int w).bind fun _ => leavesRest_pure _
  | .float32 => exact (Decode.leavesRest_take 4).bind fun _ => leavesRest_pure _
  | .float64 => exact (Decode.leavesRest_take 8).bind fun _ => leavesRest_pure _
  | .char => exact Decode.leavesRest_char.bind fun _ => leavesRest_pure _
  | .string => exact Decode.leavesRest_text.bind fun _ => leavesRest_pure _
  | .option item =>
    refine Decode.leavesRest_presence.bind fun present => ?_
    cases present with
    | false => exact leavesRest_pure _
    | true => exact (leavesRest_decodeWith hself item).bind fun _ => leavesRest_pure _
  | .seq item | .stream item =>
    exact (Decode.leavesRest_counted (leavesRest_decodeWith hself item)).bind fun _ => leavesRest_pure _
  | .map key value =>
    have hentry := Decode.leavesRest_entry (leavesRest_decodeWith hself key)
      (leavesRest_decodeWith hself value)
    exact (Decode.leavesRest_counted hentry).bind fun _ => leavesRest_pure _
  | .tuple fields => exact (leavesRest_decodeFields hself fields).bind fun _ => leavesRest_pure _
  | .union alternatives =>
    exact (Decode.leavesRest_varint 32).bind fun i =>
      (leavesRest_decodeAlternative hself alternatives i).bind fun _ => leavesRest_pure _
  | .ref i => exact hself i
termination_by structural s

theorem leavesRest_decodeFields (hself : ∀ i, (self i).LeavesRest) (ss : List Schema) :
    (decodeFields self ss).LeavesRest := by
  match ss with
  | [] => exact leavesRest_pure _
  | s :: ss =>
    exact (leavesRest_decodeWith hself s).bind fun _ =>
      (leavesRest_decodeFields hself ss).bind fun _ => leavesRest_pure _
termination_by structural ss

theorem leavesRest_decodeAlternative (hself : ∀ i, (self i).LeavesRest) (ss : List Schema) (i : Nat) :
    (decodeAlternative self ss i).LeavesRest := by
  match ss, i with
  | [], _ => exact leavesRest_throw _
  | s :: _, 0 => exact leavesRest_decodeWith hself s
  | _ :: ss, i + 1 => exact leavesRest_decodeAlternative hself ss i
termination_by structural ss

end

/-- However deep definitions are followed, the rest is left alone. -/
theorem leavesRest_decodeAt (defs : List Schema) (turns : Nat) (s : Schema) :
    (decodeAt defs turns s).LeavesRest := by
  induction turns generalizing s with
  | zero => exact leavesRest_throw _
  | succ turns ih =>
    refine leavesRest_decodeWith (fun i => ?_) s
    cases defs[i]? with
    | none => exact leavesRest_throw _
    | some target => exact ih target

end Schema

/-- **What follows a value** is left alone by the reader of a model type, though it counts its turns by
it. -/
theorem Layout.leavesRest_decode (l : Layout) : l.decode.LeavesRest := by
  intro b v rest h more
  have hturns : l.defs.length * (b.length + 1) + 1 ≤ l.defs.length * ((b ++ more).length + 1) + 1 := by
    rw [List.length_append]
    exact Nat.succ_le_succ (Nat.mul_le_mul_left _ (by omega))
  -- the turns that there are with more bytes make no difference without them
  rw [← l.decodeAt_eq_decode hturns] at h
  exact Schema.leavesRest_decodeAt l.defs _ l.root b v rest h more

end SnapStore
