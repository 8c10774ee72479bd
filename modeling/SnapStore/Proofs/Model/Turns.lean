import SnapStore.Proofs.Model.Spelling

namespace SnapStore

/-!
# Following definitions without end

A reader of a model type follows definitions as deep as it is allowed to.  If it comes to the end of
its turns, it answers that bytes are missing; every other answer it has come to by itself, and gives with
more turns as well.  Between two bytes it can only follow each definition once before it goes round in
circles, so that the turns of `Layout.decode` are enough for every answer there is.

* `Reader.Persists b r r'` — the answers that one reader comes to within `b` are those of another one.
* `Schema.persists_decodeWith` — a reader of a shape persists if those of the definitions do.
* `Schema.persists_follow` — so many turns as there are definitions, between any two bytes, are enough.
* `Layout.decodeAt_eq_decode` — the number of turns never decides what is read.
-/

/-- Whatever `r` makes of bytes at the end of `b`, unless it lacks some, `r'` makes of them as well. -/
def Reader.Persists {α : Type} (b : Bytes) (r r' : Reader DecodeError α) : Prop :=
  ∀ c, c <:+ b → r c = .error .endOfInput ∨ r' c = r c

namespace Reader

variable {α β : Type} {b c : Bytes} {r r' : Reader DecodeError α} {P : α → Nat → Prop}

theorem Persists.refl (b : Bytes) (r : Reader DecodeError α) : Persists b r r := fun _ _ => .inr rfl

theorem Reads.isSuffix (hr : r.Reads P) {x : α} {rest : Bytes} (h : r c = .ok (x, rest)) : rest <:+ c := by
  obtain ⟨front, rfl, -⟩ := hr c x rest h
  exact List.suffix_append front rest

/-- One step after another persists if both do. -/
theorem Persists.bind (h : Persists b r r') (hr : r.Reads P) {f f' : α × Bytes → Except DecodeError β}
    (hf : ∀ x rest, rest <:+ b → f (x, rest) = .error .endOfInput ∨ f' (x, rest) = f (x, rest))
    (hc : c <:+ b) : (r c >>= f) = .error .endOfInput ∨ (r' c >>= f') = (r c >>= f) := by
  rcases h c hc with hend | hsame
  · rw [hend]
    exact .inl rfl
  · rw [hsame]
    cases hx : r c with
    | error e => exact .inr rfl
    | ok p => exact hf p.1 p.2 ((hr.isSuffix hx).trans hc)

end Reader

open Reader

namespace Decode

variable {α : Type} {b : Bytes} {item item' : Reader DecodeError α} {P : α → Nat → Prop}

theorem persists_items (h : Persists b item item') (hr : item.Reads P) (n : Nat) (acc : List α) :
    Persists b (items item n acc) (items item' n acc) := by
  induction n generalizing acc with
  | zero => exact Persists.refl b _
  | succ n ih =>
    intro c hc
    simp only [items]
    rcases h c hc with hend | hsame
    · rw [hend]
      exact .inl rfl
    · rw [hsame]
      cases hx : item c with
      | error e => exact .inr rfl
      | ok p => exact ih (p.1 :: acc) p.2 ((hr.isSuffix hx).trans hc)

theorem persists_counted (h : Persists b item item') (hr : item.Reads P) :
    Persists b (counted item) (counted item') := by
  intro c hc
  exact (Persists.refl b _).bind (reads_varint 64) (fun n rest hrest =>
    persists_items h hr n [] rest hrest) hc

theorem persists_entry {key key' value value' : Reader DecodeError Value} {Q : Value → Nat → Prop}
    {R : Value → Nat → Prop} (hkey : Persists b key key') (hkey' : key.Reads Q)
    (hvalue : Persists b value value') (hvalue' : value.Reads R) :
    Persists b (entry key value) (entry key' value') := by
  intro c hc
  exact hkey.bind hkey' (fun k rest hrest => hvalue.bind hvalue' (fun _ _ _ => .inr rfl) hrest) hc

end Decode

namespace Schema

variable {defs : List Schema} {self self' : Nat → Reader DecodeError Value} {b : Bytes}

mutual

/-- **A shape persists as its definitions do.** -/
theorem persists_decodeWith (hreads : ∀ i, (self i).Reads (Spelled defs (.ref i)))
    (hself : ∀ i, Persists b (self i) (self' i)) (s : Schema) :
    Persists b (s.decodeWith self) (s.decodeWith self') := by
  match s with
  | .unit | .bool | .nat _ | .int _ | .float32 | .float64 | .char | .string => exact Persists.refl b _
  | .option item =>
    intro c hc
    refine (Persists.refl b _).bind Decode.reads_presence (fun present rest hrest => ?_) hc
    cases present with
    | false => exact .inr rfl
    | true =>
      exact (persists_decodeWith hreads hself item).bind (reads_decodeWith hreads item)
        (fun _ _ _ => .inr rfl) hrest
  | .seq item | .stream item =>
    intro c hc
    have hitem := reads_decodeWith hreads item
    exact (Decode.persists_counted (persists_decodeWith hreads hself item) hitem).bind
      (Decode.reads_counted hitem) (fun _ _ _ => .inr rfl) hc
  | .map key value =>
    intro c hc
    have hkey := reads_decodeWith hreads key
    have hvalue := reads_decodeWith hreads value
    have hentry := Decode.persists_entry (persists_decodeWith hreads hself key) hkey
      (persists_decodeWith hreads hself value) hvalue
    exact (Decode.persists_counted hentry (reads_entry hkey hvalue)).bind
      (Decode.reads_counted (reads_entry hkey hvalue)) (fun _ _ _ => .inr rfl) hc
  | .tuple fields =>
    intro c hc
    exact (persists_decodeFields hreads hself fields).bind (reads_decodeFields hreads fields)
      (fun _ _ _ => .inr rfl) hc
  | .union alternatives =>
    intro c hc
    refine (Persists.refl b _).bind (Decode.reads_varint 32) (fun i rest hrest => ?_) hc
    exact (persists_decodeAlternative hreads hself alternatives i).bind
      (reads_decodeAlternative hreads alternatives i) (fun _ _ _ => .inr rfl) hrest
  | .ref i => exact hself i
termination_by structural s

theorem persists_decodeFields (hreads : ∀ i, (self i).Reads (Spelled defs (.ref i)))
    (hself : ∀ i, Persists b (self i) (self' i)) (ss : List Schema) :
    Persists b (decodeFields self ss) (decodeFields self' ss) := by
  match ss with
  | [] => exact Persists.refl b _
  | s :: ss =>
    intro c hc
    refine (persists_decodeWith hreads hself s).bind (reads_decodeWith hreads s)
      (fun v rest hrest => ?_) hc
    exact (persists_decodeFields hreads hself ss).bind (reads_decodeFields hreads ss)
      (fun _ _ _ => .inr rfl) hrest
termination_by structural ss

theorem persists_decodeAlternative (hreads : ∀ i, (self i).Reads (Spelled defs (.ref i)))
    (hself : ∀ i, Persists b (self i) (self' i)) (ss : List Schema) (i : Nat) :
    Persists b (decodeAlternative self ss i) (decodeAlternative self' ss i) := by
  match ss, i with
  | [], _ => exact Persists.refl b _
  | s :: _, 0 => exact persists_decodeWith hreads hself s
  | _ :: ss, i + 1 => exact persists_decodeAlternative hreads hself ss i
termination_by structural ss

end

/-! ### Turns -/

theorem follow_of_getElem? {i : Nat} {target : Schema} (h : defs[i]? = some target) (turns : Nat) :
    follow defs turns i = decodeAt defs turns target := by
  simp only [follow, h]

/-- A definition that is missing is missing however deep definitions are followed. -/
theorem follow_of_none {i : Nat} (h : defs[i]? = none) (turns turns' : Nat) :
    follow defs turns i = follow defs turns' i := by
  simp only [follow, h]

/-- One more turn changes no answer. -/
theorem persists_follow_succ (turns i : Nat) (b : Bytes) :
    Persists b (follow defs turns i) (follow defs (turns + 1) i) := by
  induction turns generalizing i with
  | zero =>
    cases hi : defs[i]? with
    | none =>
      rw [follow_of_none hi 0 1]
      exact Persists.refl b _
    | some target =>
      rw [follow_of_getElem? hi, follow_of_getElem? hi]
      exact fun _ _ => .inl rfl
  | succ turns ih =>
    cases hi : defs[i]? with
    | none =>
      rw [follow_of_none hi (turns + 1) (turns + 1 + 1)]
      exact Persists.refl b _
    | some target =>
      rw [follow_of_getElem? hi, follow_of_getElem? hi]
      exact persists_decodeWith (reads_follow turns) ih target

/-- **Enough turns.** What a definition makes of bytes with any number of turns, it makes of them with
enough turns for these bytes.  The definitions in `seen` are those that have been come to without reading
anything and that are not done with as many turns: whoever follows one of them goes round in circles. -/
theorem follow_of_turnsFor {turns turns' : Nat} {b : Bytes} (seen : Finset Nat)
    (hlt : ∀ i ∈ seen, i < defs.length)
    (hseen : ∀ i ∈ seen, follow defs turns i b = .error .endOfInput)
    (hturns : turnsFor defs seen b.length ≤ turns') (i : Nat) :
    follow defs turns i b = .error .endOfInput ∨ follow defs turns' i b = follow defs turns i b := by
  -- on the turns, for any bytes and any definitions that have been come to
  induction turns generalizing b seen turns' i with
  | zero =>
    cases hi : defs[i]? with
    | none => exact .inr (by rw [follow_of_none hi 0 turns'])
    | some target =>
      rw [follow_of_getElem? hi]
      exact .inl rfl
  | succ turns ih =>
    -- what is not done with one turn more is not done now
    have hfewer (j : Nat) (hj : follow defs (turns + 1) j b = .error .endOfInput) :
        follow defs turns j b = .error .endOfInput := by
      rcases persists_follow_succ turns j b b (List.suffix_refl b) with h | h
      · exact h
      · rw [← h, hj]
    by_cases hlast : follow defs turns i b = .error .endOfInput
    · by_cases hmem : i ∈ seen
      · exact .inl (hseen i hmem)
      cases hi : defs[i]? with
      | none => exact .inr (by rw [follow_of_none hi (turns + 1) turns'])
      | some target =>
        have hinsert : ∀ j ∈ insert i seen, j < defs.length := by
          intro j hj
          rcases Finset.mem_insert.mp hj with rfl | hj
          · exact (List.getElem?_eq_some_iff.mp hi).1
          · exact hlt j hj
        have hunfinished : ∀ j ∈ insert i seen, follow defs turns j b = .error .endOfInput := by
          intro j hj
          rcases Finset.mem_insert.mp hj with rfl | hj
          · exact hlast
          · exact hfewer j (hseen j hj)
        have hless := turnsFor_insert_lt (n := b.length) hmem hinsert
        obtain ⟨t, rfl⟩ : ∃ t, turns' = t + 1 := ⟨turns' - 1, by omega⟩
        rw [follow_of_getElem? hi, follow_of_getElem? hi]
        refine persists_decodeWith (reads_follow turns) (fun j c hc => ?_) target b (List.suffix_refl b)
        rcases Nat.lt_or_ge c.length b.length with hshort | hlong
        · -- bytes have been read, so that every definition may be followed again
          refine ih ∅ (by simp) (by simp) ?_ j
          exact Nat.le_trans (turnsFor_empty_le hshort) (Nat.le_of_lt_succ (Nat.lt_of_lt_of_le hless hturns))
        · have hsame : c = b := hc.eq_of_length (Nat.le_antisymm hc.length_le hlong)
          rw [hsame]
          exact ih (insert i seen) hinsert hunfinished
            (Nat.le_of_lt_succ (Nat.lt_of_lt_of_le hless hturns)) j
    · -- the last turn was not needed
      have hsame : follow defs (turns + 1) i b = follow defs turns i b :=
        (persists_follow_succ turns i b b (List.suffix_refl b)).resolve_left hlast
      rw [hsame]
      exact ih seen hlt (fun j hj => hfewer j (hseen j hj)) hturns i

/-- With enough turns for some bytes, the answers are those with any number of turns. -/
theorem persists_follow {turns' : Nat} {b : Bytes} (hturns : turnsFor defs ∅ b.length ≤ turns')
    (turns i : Nat) : Persists b (follow defs turns i) (follow defs turns' i) := by
  intro c hc
  refine follow_of_turnsFor ∅ (by simp) (by simp) ?_ i
  exact Nat.le_trans (turnsFor_le hc.length_le) hturns

/-- Two numbers of turns that are both enough make no difference. -/
theorem decodeWith_follow_eq {turns turns' : Nat} {b : Bytes} (s : Schema)
    (hturns : turnsFor defs ∅ b.length ≤ turns) (hturns' : turnsFor defs ∅ b.length ≤ turns') :
    s.decodeWith (follow defs turns) b = s.decodeWith (follow defs turns') b := by
  have hmore := persists_decodeWith (reads_follow turns) (persists_follow hturns' turns) s b
    (List.suffix_refl b)
  have hfewer := persists_decodeWith (reads_follow turns') (persists_follow hturns turns') s b
    (List.suffix_refl b)
  -- neither of the two can have an answer that the other one lacks
  rcases hmore with hend | hsame
  · rcases hfewer with hend' | hsame
    · rw [hend, hend']
    · exact hsame
  · exact hsame.symm

end Schema

/-- **The turns never decide.** With any larger number of turns than there are for so many bytes, the same
is read. -/
theorem Layout.decodeAt_eq_decode (l : Layout) {b : Bytes} {turns : Nat}
    (hturns : l.defs.length * (b.length + 1) + 1 ≤ turns) :
    Schema.decodeAt l.defs turns l.root b = l.decode b := by
  obtain ⟨t, rfl⟩ : ∃ t, turns = t + 1 := ⟨turns - 1, by omega⟩
  have hbound : Schema.turnsFor l.defs ∅ b.length = l.defs.length * (b.length + 1) := by
    simp only [Schema.turnsFor, Finset.card_empty, Nat.sub_zero, Nat.mul_add, Nat.mul_one]
    omega
  exact Schema.decodeWith_follow_eq l.root (by omega) (by omega)

end SnapStore
