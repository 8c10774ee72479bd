import SnapStore.Proofs.Zstandard.Format
import SnapStore.Proofs.Zstandard.Following

namespace SnapStore.Zstandard

open Source

/-!
# Frames that keep the rules are decoded

A decoder keeps the window of a frame in its buffer, whatever the size of the buffer: it starts it again
only when there is a window and more in it, and what a block then overwrites is farther back than the
window.  So a block that copies from within the window gets what the format says.

* `Output.HasWindow` — the buffer holds the window.  `Output.copy_of_hasWindow` is what follows for a copy.
* `Block.execute_of_format`, `Block.decompress_of_format` — one block, for all decoders.
* `Frame.Plan.Suffices` — the buffer is as large as a plan makes it.
* `Frame.blocks_of_format`, `Frame.decode_of_format` — the blocks of a frame and the frame, wherever chunks
  end and whatever buffers there are.
* `decodeAll_of_contents` — all frames.
-/

/-! ### Copies -/

namespace Output

@[simp] theorem size_repeatFrom (distance n : Nat) (content : Array UInt8) :
    (repeatFrom distance n content).size = content.size + n := by
  induction n generalizing content with
  | zero => rfl
  | succ n ih =>
    rw [repeatFrom, ih, Array.size_push]
    omega

/-- The first bytes of a copy, up to where it reaches into itself, are those that were there before. -/
theorem repeatFrom_add {distance k : Nat} (n : Nat) {content : Array UInt8} (hk : k ≤ distance)
    (hsize : distance ≤ content.size) :
    repeatFrom distance (k + n) content = repeatFrom distance n
      (content ++ (Array.range k).map fun i => content.getD (content.size - distance + i) 0) := by
  induction k generalizing n with
  | zero =>
    have hnone : Array.range 0 = #[] := rfl
    rw [Nat.zero_add, hnone, Array.map_empty, Array.append_empty]
  | succ k ih =>
    have hback : content.size + k - distance < content.size := by omega
    have hplace : content.size + k - distance = content.size - distance + k := by omega
    rw [Nat.add_assoc, ih (1 + n) (by omega), Nat.add_comm 1 n, repeatFrom, Array.range_succ,
      Array.map_append, ← Array.append_assoc, Array.push_eq_append]
    congr 2
    simp only [Array.size_append, Array.size_map, Array.size_range]
    simp only [List.map_toArray, List.map_cons, List.map_nil]
    rw [← hplace, Array.getD_eq_getD_getElem?, Array.getD_eq_getD_getElem?,
      Array.getElem?_append_left hback]

/-- The buffer holds as much of the contents as a window, if there is so much. -/
structure HasWindow (o : Output) (window : Nat) : Prop where
  base_le : o.base ≤ o.content.size
  reach_le : o.reach ≤ o.base
  window : o.base = 0 ∨ window ≤ o.reach

/-- **A copy from within the window** is a copy of the contents: nothing that it needs has been
overwritten. -/
theorem copy_of_hasWindow {content : Array UInt8} {base reach window distance : Nat}
    (h : HasWindow ⟨content, base, reach⟩ window) (hpos : 0 < distance) (hwindow : distance ≤ window)
    (hsize : distance ≤ content.size) (n : Nat) :
    canReach ⟨content, base, reach⟩ distance = true ∧
      copy ⟨content, base, reach⟩ distance n = ⟨repeatFrom distance n content, base, reach⟩ := by
  obtain ⟨hbase, hreach, hheld⟩ := h
  simp only at hbase hreach hheld
  refine ⟨?_, ?_⟩
  · have hreached : distance ≤ content.size - base + reach := by omega
    simp only [canReach, used, hpos, hreached, decide_true, Bool.and_self]
  · -- the first bytes come from before the buffer was started again, the others from behind that
    have hold : (Array.range (min n (distance - (content.size - base)))).map
        (fun i => slot content base reach (reach - (distance - (content.size - base)) + i)) =
          (Array.range (min n (distance - (content.size - base)))).map
            fun i => content.getD (content.size - distance + i) 0 := by
      refine Array.map_congr_left fun i hi => ?_
      have hi : i < min n (distance - (content.size - base)) := by simpa using hi
      have hkept : ¬ base + (reach - (distance - (content.size - base)) + i) < content.size := by omega
      have hplace : base - reach + (reach - (distance - (content.size - base)) + i) =
          content.size - distance + i := by omega
      rw [slot, if_neg hkept, hplace]
    have hn : n = min n (distance - (content.size - base)) +
        (n - min n (distance - (content.size - base))) := by
      omega
    simp only [copy]
    rw [hold]
    conv_rhs => rw [hn]
    rw [repeatFrom_add _ (by omega) hsize]

end Output

/-! ### Blocks -/

/-- The past of a block, with a buffer. -/
def Format.Past.history (m : Format.Past) (base reach : Nat) : History :=
  ⟨⟨m.content, base, reach⟩, m.code, m.tables, m.recent⟩

namespace Block

variable {space space' : Space}

theorem size_of_finish {most start taken : Nat} {l : Literals} {content after : Array UInt8}
    (hstart : start ≤ content.size) (htaken : taken ≤ l.bytes.size)
    (h : Format.finish most l start taken content = .ok after) :
    content.size + (l.bytes.size - taken) ≤ after.size ∧ after.size ≤ start + most := by
  obtain ⟨hfits, rfl⟩ := Format.finish_eq_ok_iff.mp h
  simp only [Array.size_append, Array.size_extract]
  omega

theorem room_place (place : Place) (space : Space) : space.capacity ≤ place.room space := by
  have : space.capacity = min space.limit space.room := rfl
  cases place <;> simp only [Place.room] <;> omega

theorem finish_of_format {most start taken base reach : Nat} {l : Literals} {content after : Array UInt8}
    (place : Place) (hmost : most ≤ space.capacity)
    (h : Format.finish most l start taken content = .ok after) :
    finish space { l with place } start taken ⟨content, base, reach⟩ = .ok ⟨after, base, reach⟩ := by
  have hroom := room_place place space
  obtain ⟨hfits, rfl⟩ := Format.finish_eq_ok_iff.mp h
  rw [finish, if_neg]
  · rfl
  · show ¬ place.room space + taken < content.size - start + l.bytes.size
    omega

/-- Every literal goes to the contents in the end, and then there is no more than there can be. -/
theorem size_of_execute {window most : Nat} {l : Literals} {t : Tables} {start n taken : Nat} {c : Cursor}
    {content after : Array UInt8} {recent : Recent} (hstart : start ≤ content.size)
    (htaken : taken ≤ l.bytes.size)
    (h : Format.execute window most l t start n c taken content = .ok (after, recent)) :
    content.size + (l.bytes.size - taken) ≤ after.size ∧ after.size ≤ start + most := by
  induction n generalizing c taken content with
  | zero =>
    obtain ⟨-, hfinish, -⟩ := Format.execute_zero_eq_ok h
    exact size_of_finish hstart htaken hfinish
  | succ n ih =>
    obtain ⟨-, hliterals, -, h⟩ := Format.execute_succ_eq_ok_iff.mp h
    have hrest := ih (by simp only [Output.size_repeatFrom, Array.size_append]; omega) (by omega) h
    simp only [Output.size_repeatFrom, Array.size_append, Array.size_extract] at hrest
    omega

/-- **The sequences of a block.** They give what the format says, whatever the room is, if only it is not
less, and wherever the literals are. -/
theorem execute_of_format {window most : Nat} {l : Literals} {t : Tables} {start n taken : Nat} {c : Cursor}
    {content after : Array UInt8} {recent : Recent} {base reach : Nat} (place : Place)
    (hmost : most ≤ space.capacity) (hstart : start ≤ content.size) (htaken : taken ≤ l.bytes.size)
    (hwindow : Output.HasWindow ⟨content, base, reach⟩ window)
    (h : Format.execute window most l t start n c taken content = .ok (after, recent)) :
    execute space { l with place } t start n c taken ⟨content, base, reach⟩ =
      .ok (⟨after, base, reach⟩, recent) := by
  have hroom := room_place place space
  induction n generalizing c taken content with
  | zero =>
    obtain ⟨hdone, hfinish, rfl⟩ := Format.execute_zero_eq_ok h
    simp only [execute, hdone, if_true, finish_of_format place hmost hfinish, Except.map]
  | succ n ih =>
    have htotal := size_of_execute hstart htaken h
    obtain ⟨hfits, hliterals, ⟨hpos, hnear, hback⟩, h⟩ := Format.execute_succ_eq_ok_iff.mp h
    -- no literal is overwritten before its turn
    have hlost : ∀ used produced, produced + l.bytes.size ≤ space.capacity + used →
        place.isLost space l.bytes.size used (t.next (n = 0) c).1.literals produced = false := by
      intro used produced hle
      have hfree : ¬ space.capacity + 65536 + used < produced + l.bytes.size + 32 := by omega
      simp only [Place.isLost, Place.ownRoom, Place.gap, hfree, decide_false, Bool.false_and, Bool.and_false]
    have hgrown : Output.HasWindow ⟨content ++ l.bytes.extract taken (taken + (t.next (n = 0) c).1.literals),
        base, reach⟩ window := by
      refine ⟨?_, hwindow.reach_le, hwindow.window⟩
      have := hwindow.base_le
      simp only [Array.size_append] at this ⊢
      omega
    obtain ⟨hreach, hcopy⟩ := Output.copy_of_hasWindow hgrown hpos hnear hback
      (t.next (n = 0) c).1.length
    simp only [execute]
    rw [if_neg (by omega), if_neg (by omega), hlost _ _ (by omega)]
    simp only [Bool.false_eq_true, if_false, Output.append, hreach, if_true, hcopy]
    refine ih ?_ (by omega) ?_ h
    · simp only [Output.size_repeatFrom, Array.size_append]
      omega
    · refine ⟨?_, hwindow.reach_le, hwindow.window⟩
      have := hwindow.base_le
      simp only [Output.size_repeatFrom, Array.size_append] at this ⊢
      omega

end Block

/-- In a room that is not smaller, the same literals are read, though their place may be another one. -/
theorem Literals.read_of_le {space space' : Space} {code : Option PrefixCode} {data : Array UInt8}
    {l : Literals} (hlimit : space'.limit = space.limit) (hcapacity : space.capacity ≤ space'.capacity)
    (h : Literals.read space code data = .ok l) :
    ∃ place, Literals.read space' code data = .ok { l with place } := by
  unfold Literals.read at h ⊢
  obtain ⟨⟨⟩, hrequire, h⟩ := bind_eq_ok_iff.mp h
  generalize hstorage : Storage.ofBits (word data 0 1) = storage at h ⊢
  simp only [hrequire, bind, Except.bind] at h ⊢
  obtain ⟨hcode, h⟩ := refuse_eq_ok_iff.mp h
  rw [if_neg hcode]
  cases hheader : Header.read storage data with
  | error e =>
    simp only [hheader] at h
    cases h
  | ok header =>
    simp only [hheader] at h ⊢
    rw [hlimit]
    obtain ⟨hcount, h⟩ := refuse_eq_ok_iff.mp h
    rw [if_neg hcount]
    -- there is room for the literals in the other space, too
    have hroom (hfits : ¬ space.capacity < header.count) : ¬ space'.capacity < header.count := by omega
    cases storage with
    | plain =>
      simp only at h ⊢
      obtain ⟨hfits, h⟩ := refuse_eq_ok_iff.mp h
      rw [if_neg (hroom hfits)]
      split at h
      · cases h
      rename_i hbytes
      cases h
      exact ⟨_, rfl⟩
    | repeated =>
      simp only at h ⊢
      obtain ⟨hfits, h⟩ := refuse_eq_ok_iff.mp h
      rw [if_neg (hroom hfits)]
      cases h
      exact ⟨_, rfl⟩
    | coded | recoded =>
      simp only at h ⊢
      obtain ⟨hleast, h⟩ := refuse_eq_ok_iff.mp h
      rw [if_neg hleast]
      split at h
      · cases h
      rename_i hbytes
      obtain ⟨hfits, h⟩ := refuse_eq_ok_iff.mp h
      rw [if_neg (hroom hfits)]
      split at h
      · cases h
      cases h
      exact ⟨_, rfl⟩

namespace Block

variable {space space' : Space}

/-- **A compressed block.** -/
theorem decompress_of_format {window base reach : Nat} {data : Array UInt8} {m after : Format.Past}
    (hlimit : space'.limit = space.limit) (hcapacity : space.capacity ≤ space'.capacity)
    (hwindow : Output.HasWindow ⟨m.content, base, reach⟩ window)
    (h : Format.decompress window space data m = .ok after) :
    decompress space' data (m.history base reach) = .ok (after.history base reach) := by
  obtain ⟨hsize, l, s, hl, hs, h⟩ := Format.decompress_eq_ok h
  obtain ⟨place, hl⟩ := Literals.read_of_le hlimit hcapacity hl
  simp only [decompress, Format.Past.history]
  rw [hlimit, if_neg (Nat.not_lt.mpr hsize)]
  simp only [hl, hs, bind, Except.bind]
  rcases h with ⟨hcount, content, hfinish, rfl⟩ | ⟨hcount, hroom, t, bits, content, recent, ht, hbits,
    hexecute, rfl⟩
  · rw [if_pos hcount]
    simp only [finish_of_format place hcapacity hfinish]
    rfl
  · have hroom' : space'.room ≠ 0 := by
      have : space'.capacity = min space'.limit space'.room := rfl
      omega
    rw [if_neg hcount, if_neg hroom']
    simp only [ht, hbits, execute_of_format place hcapacity (Nat.le_refl _) (Nat.zero_le _) hwindow hexecute]
    rfl

/-- A block does not take away from the contents, and what it puts there is not more than fits. -/
theorem size_of_format {h : Frame.Header} {header : Header} {b : Bytes} {m after : Format.Past}
    (hblock : Format.block h header b m = .ok after) :
    m.content.size ≤ after.content.size ∧
      after.content.size ≤ m.content.size + (Format.space h m.content).capacity := by
  have happend {bytes : Array UInt8}
      (h' : Format.append (Format.space h m.content).capacity bytes m = .ok after) :
      m.content.size ≤ after.content.size ∧
        after.content.size ≤ m.content.size + (Format.space h m.content).capacity := by
    obtain ⟨hfits, rfl⟩ := Format.append_eq_ok_iff.mp h'
    simp only [Array.size_append]
    omega
  unfold Format.block at hblock
  simp only at hblock
  split at hblock
  · exact happend hblock
  · exact happend hblock
  · obtain ⟨-, l, s, -, -, hblock⟩ := Format.decompress_eq_ok hblock
    rcases hblock with ⟨-, content, hfinish, rfl⟩ | ⟨-, -, t, bits, content, recent, -, -, hexecute, rfl⟩
    · have hsize := size_of_finish (Nat.le_refl _) (Nat.zero_le _) hfinish
      exact ⟨Nat.le_trans (Nat.le_add_right ..) hsize.1, hsize.2⟩
    · have hsize := size_of_execute (Nat.le_refl _) (Nat.zero_le _) hexecute
      exact ⟨Nat.le_trans (Nat.le_add_right ..) hsize.1, hsize.2⟩

end Block

/-! ### The buffer -/

namespace Frame

variable {p : Plan} {m after : Format.Past} {base reach : Nat}

/-- The buffer is large enough for all of the contents, or for the window and a block. -/
def Plan.Suffices (p : Plan) : Prop :=
  (∃ n ≤ p.size, p.header.contentSize = some n) ∨ p.header.window + p.header.blockLimit ≤ p.size

/-- The buffer holds the window, and has room for the next block. -/
structure Ready (p : Plan) (content : Array UInt8) (base reach : Nat) : Prop where
  window : Output.HasWindow ⟨content, base, reach⟩ p.header.window
  room : (Format.space p.header content).capacity ≤ p.size - (content.size - base)

theorem ready_start (hp : p.Suffices) : Ready p #[] 0 0 := by
  refine ⟨⟨Nat.le_refl 0, Nat.le_refl 0, .inl rfl⟩, ?_⟩
  simp only [Format.space, Space.capacity]
  rcases hp with ⟨n, hn, hsize⟩ | hlarge
  · simp only [hsize, Option.map_some, Option.getD_some, Array.size_empty]
    omega
  · simp only [Array.size_empty]
    omega

/-- Starting the buffer again keeps the window and makes room. -/
theorem ready_settle (hp : p.Suffices) {content : Array UInt8}
    (h : Output.HasWindow ⟨content, base, reach⟩ p.header.window) :
    ∃ base' reach', Output.settle ⟨content, base, reach⟩ p.size p.header.blockLimit p.header.contentSize =
      ⟨content, base', reach'⟩ ∧ Ready p content base' reach' := by
  obtain ⟨hbase, hreach, hwindow⟩ := h
  simp only at hbase hreach hwindow
  have hcapacity : (Format.space p.header content).capacity ≤ p.header.blockLimit := Nat.min_le_left ..
  unfold Output.settle
  split
  · rename_i hagain
    obtain ⟨hpart, hfull⟩ := Bool.and_eq_true_iff.mp hagain
    have hfull : p.size < content.size - base + p.header.blockLimit := of_decide_eq_true hfull
    -- the contents are not known to fit, so that the buffer is for the window and a block
    have hlarge : p.header.window + p.header.blockLimit ≤ p.size := by
      refine hp.resolve_left ?_
      rintro ⟨n, hn, hsize⟩
      rw [hsize, Option.all_some, decide_eq_true_eq] at hpart
      omega
    refine ⟨content.size, content.size - base, rfl, ⟨Nat.le_refl _, Nat.sub_le .., .inr ?_⟩, ?_⟩
    · show p.header.window ≤ content.size - base
      omega
    · omega
  · rename_i hagain
    refine ⟨base, reach, rfl, ⟨hbase, hreach, hwindow⟩, ?_⟩
    by_cases hpart : p.header.contentSize.all (p.size < ·) = true
    · have hroom : ¬ p.size < content.size - base + p.header.blockLimit := fun hfull =>
        hagain (Bool.and_eq_true_iff.mpr ⟨hpart, decide_eq_true hfull⟩)
      omega
    · -- all of the contents fit
      cases hsize : p.header.contentSize with
      | none =>
        rw [hsize] at hpart
        exact absurd rfl hpart
      | some n =>
        rw [hsize, Option.all_some, decide_eq_true_eq] at hpart
        simp only [Format.space, Space.capacity, hsize, Option.map_some, Option.getD_some]
        omega

/-- Behind a block, the buffer is settled, if there is anything new in it. -/
theorem ready_of_grown (hp : p.Suffices) (h : Ready p m.content base reach)
    (hgrown : m.content.size ≤ after.content.size) :
    ∃ base' reach', settle p m.content.size (after.history base reach) = after.history base' reach' ∧
      Ready p after.content base' reach' := by
  have hwindow : Output.HasWindow ⟨after.content, base, reach⟩ p.header.window :=
    ⟨Nat.le_trans h.window.base_le hgrown, h.window.reach_le, h.window.window⟩
  rw [settle_eq]
  by_cases hsame : (after.history base reach).output.content.size = m.content.size
  · rw [if_pos hsame]
    refine ⟨base, reach, rfl, hwindow, ?_⟩
    have hsize : after.content.size = m.content.size := hsame
    have hroom := h.room
    simp only [Format.space] at hroom ⊢
    rw [hsize]
    exact hroom
  · rw [if_neg hsame]
    obtain ⟨base', reach', hsettle, hready⟩ := ready_settle hp hwindow
    refine ⟨base', reach', ?_, hready⟩
    rw [show (after.history base reach).output = ⟨after.content, base, reach⟩ from rfl, hsettle]
    rfl

/-! ### The blocks of a frame -/

/-- The decoder has no less room for the next block than the format gives it. -/
theorem Ready.capacity_le (h : Ready p m.content base reach) :
    (Format.space p.header m.content).capacity ≤ (p.space (m.history base reach).output).capacity := by
  have hroom := h.room
  have hlimit : (Format.space p.header m.content).capacity ≤ p.header.blockLimit := Nat.min_le_left ..
  exact Nat.le_min.mpr ⟨hlimit, hroom⟩

/-- Bytes that the format has room for come behind the contents. -/
theorem append_of_ready (h : Ready p m.content base reach) {bytes : Array UInt8}
    (hfits : bytes.size ≤ (Format.space p.header m.content).capacity) :
    Block.append (p.space (m.history base reach).output) bytes (m.history base reach) =
      .ok ({ m with content := m.content ++ bytes }.history base reach) := by
  have hroom : (p.space (m.history base reach).output).capacity ≤ p.size - (m.content.size - base) :=
    Nat.min_le_right ..
  exact append_of_le (Nat.le_trans (Nat.le_trans hfits h.capacity_le) hroom) _

/-- What is left of a piece still fits when a part of it is there. -/
theorem capacity_append {h : Header} {content bytes : Array UInt8} {n : Nat}
    (hfits : bytes.size + n ≤ (Format.space h content).capacity) :
    n ≤ (Format.space h (content ++ bytes)).capacity := by
  simp only [Format.space, Space.capacity, Array.size_append] at hfits ⊢
  cases hsize : h.contentSize with
  | none =>
    simp only [hsize, Option.map_none, Option.getD_none] at hfits ⊢
    omega
  | some declared =>
    simp only [hsize, Option.map_some, Option.getD_some] at hfits ⊢
    omega

/-- **A block that is stored as it is**, however much of it is in sight at a time. -/
theorem readRaw_of_format (hp : p.Suffices) {piece : Bytes} (rest : Bytes) (taken : Nat)
    (hfits : piece.length ≤ (Format.space p.header m.content).capacity) (h : Ready p m.content base reach) :
    ∃ base' reach' taken', readRaw p piece.length ⟨piece ++ rest, taken⟩ (m.history base reach) =
        .ok ({ m with content := m.content ++ piece.toArray }.history base' reach', ⟨rest, taken'⟩) ∧
      Ready p (m.content ++ piece.toArray) base' reach' := by
  -- on the length of what is left; that the buffer is ready is what each part hands on to the next one
  induction hk : piece.length using Nat.strongRecOn generalizing piece taken m base reach with
  | ind k ih =>
    subst hk
    by_cases hne : piece = []
    · -- an empty piece ends the loop
      subst hne
      refine ⟨base, reach, taken, ?_, by simpa using h⟩
      rw [readRaw, if_pos List.length_nil]
      simp
    · obtain ⟨front, back, rfl, hfront, hsight⟩ := Source.takeInSight_append (b := rest) taken hne
      have hpos := List.length_pos_iff.mpr hfront
      rw [List.length_append] at hfits
      have hsize : front.toArray.size ≤ (Format.space p.header m.content).capacity := by
        rw [List.size_toArray]
        omega
      have happend := append_of_ready h hsize
      let mid : Format.Past := { m with content := m.content ++ front.toArray }
      have hgrown : m.content.size ≤ mid.content.size := by simp [mid]
      obtain ⟨base₁, reach₁, hsettle, hready⟩ := ready_of_grown hp h hgrown
      -- what is left of the piece is read by the same loop
      have hback : back.length ≤ (Format.space p.header mid.content).capacity := by
        refine capacity_append ?_
        rw [List.size_toArray]
        exact hfits
      obtain ⟨base', reach', taken', hread, hafter⟩ := ih back.length (by rw [List.length_append]; omega)
        (taken + front.length) hback hready rfl
      have hcontent : mid.content ++ back.toArray = m.content ++ (front ++ back).toArray := by
        rw [← List.append_toArray, ← Array.append_assoc]
      refine ⟨base', reach', taken', ?_, ?_⟩
      · have hpiece : (front ++ back).length ≠ 0 := by
          rw [List.length_append]
          omega
        have hleft : (front ++ back).length - front.length = back.length := by
          rw [List.length_append]
          omega
        rw [readRaw, if_neg hpiece]
        simp only [hsight, dif_neg (Nat.ne_of_gt hpos), happend, hleft]
        rw [show (m.history base reach).output.content.size = m.content.size from rfl, hsettle,
          hread, hcontent]
      · rw [← hcontent]
        exact hafter

/-- **One block**, in whatever way it is stored. -/
theorem decode_of_block (h : Ready p m.content base reach) {header : Block.Header} {stored : Bytes}
    (hblock : Format.block p.header header stored m = .ok after) :
    Block.decode (p.space (m.history base reach).output) header stored (m.history base reach) =
      .ok (after.history base reach) := by
  unfold Block.decode
  cases hkind : header.kind with
  | raw =>
    simp only [Format.block, hkind] at hblock
    obtain ⟨hfits, rfl⟩ := Format.append_eq_ok_iff.mp hblock
    exact append_of_ready h hfits
  | run =>
    simp only [Format.block, hkind] at hblock
    obtain ⟨hfits, rfl⟩ := Format.append_eq_ok_iff.mp hblock
    exact append_of_ready h hfits
  | compressed =>
    simp only [Format.block, hkind] at hblock
    refine Block.decompress_of_format ?_ h.capacity_le h.window hblock
    rfl

/-- No block that is passed over holds anything. -/
theorem eq_of_empty {header : Block.Header} (hempty : header.stored = 0)
    (hblock : Format.block p.header header [] m = .ok after) : after = m := by
  unfold Format.block at hblock
  simp only at hblock
  split at hblock
  · obtain ⟨-, rfl⟩ := Format.append_eq_ok_iff.mp hblock
    simp
  · rename_i hkind
    simp [Block.Header.stored, hkind] at hempty
  · -- there is not even a header of literals
    simp only [Format.decompress] at hblock
    split at hblock
    · cases hblock
    · cases hblock

/-- **What follows the header of a block.** -/
theorem readContents_of_format (hp : p.Suffices) {header : Block.Header} {stored : Bytes} (rest : Bytes)
    (taken : Nat) (hlimit : ¬ p.header.blockLimit < header.stored) (hlength : stored.length = header.stored)
    (hblock : Format.block p.header header stored m = .ok after) (h : Ready p m.content base reach) :
    ∃ base' reach' taken', readContents p header ⟨stored ++ rest, taken⟩ (m.history base reach) =
        .ok (after.history base' reach', ⟨rest, taken'⟩) ∧ Ready p after.content base' reach' := by
  unfold readContents
  rw [if_neg fun hlarge => hlimit hlarge.2]
  split
  · rename_i hskips
    simp only [Plan.skips, Bool.and_eq_true, decide_eq_true_eq] at hskips
    have hempty := hskips.1
    rw [hempty, List.length_eq_zero_iff] at hlength
    subst hlength
    rw [eq_of_empty hempty hblock]
    exact ⟨base, reach, taken, rfl, h⟩
  split
  · rename_i hraw
    simp only [Format.block, hraw] at hblock
    obtain ⟨hfits, rfl⟩ := Format.append_eq_ok_iff.mp hblock
    rw [List.size_toArray] at hfits
    rw [← hlength]
    exact readRaw_of_format hp rest taken hfits h
  · obtain ⟨hgrown, hmost⟩ := Block.size_of_format hblock
    have hcapacity : (Format.space p.header m.content).capacity ≤ p.header.blockLimit := Nat.min_le_left ..
    obtain ⟨base', reach', hsettle, hready⟩ := ready_of_grown hp h hgrown
    refine ⟨base', reach', taken + stored.length, ?_, hready⟩
    -- the format has had no more room for the block than the decoder allows
    have hfits : ¬ (! p.atOnce ∧ p.header.blockLimit <
        (after.history base reach).output.content.size - (m.history base reach).output.content.size) := by
      rintro ⟨-, hlarge⟩
      have hlarge : p.header.blockLimit < after.content.size - m.content.size := hlarge
      omega
    simp only [readBlock, ← hlength, Source.take_append, decode_of_block h hblock]
    rw [if_neg hfits]
    exact congrArg (fun x => Except.ok (x, _)) hsettle

/-- **The blocks of a frame.** -/
theorem blocks_of_format (hp : p.Suffices) {b rest : Bytes} (taken : Nat)
    (hblocks : Format.blocks p.header b m = .ok (after, rest)) (h : Ready p m.content base reach) :
    ∃ base' reach' taken', blocks p ⟨b, taken⟩ (m.history base reach) =
      .ok (after.history base' reach', ⟨rest, taken'⟩) := by
  -- along the blocks of the format, with a decoder that is ready for the next one
  fun_induction Format.blocks p.header b m generalizing base reach taken with
  | case6 b m raw behind head header hheader hlimit stored rest' body m' hblock hlast ih =>
    obtain ⟨rfl, hraw⟩ := Bytes.eq_append_of_split? head
    obtain ⟨rfl, hlength⟩ := Bytes.eq_append_of_split? body
    obtain ⟨base₁, reach₁, taken₁, hread, hready⟩ := readContents_of_format hp rest'
      (taken + raw.length) hlimit hlength hblock h
    obtain ⟨base', reach', taken', hnext⟩ := ih taken₁ hblocks hready
    refine ⟨base', reach', taken', ?_⟩
    rw [blocks_of_parts (hraw ▸ Source.take_append raw (stored ++ rest') taken) hheader hread,
      if_pos hlast, hnext]
  | case8 b m raw behind head header hheader hlimit stored rest' body m' hblock hlast hsize =>
    cases hblocks
    obtain ⟨rfl, hraw⟩ := Bytes.eq_append_of_split? head
    obtain ⟨rfl, hlength⟩ := Bytes.eq_append_of_split? body
    obtain ⟨base', reach', taken', hread, hready⟩ := readContents_of_format hp rest
      (taken + raw.length) hlimit hlength hblock h
    refine ⟨base', reach', taken', ?_⟩
    rw [blocks_of_parts (hraw ▸ Source.take_append raw (stored ++ rest) taken) hheader hread, if_neg hlast,
      if_neg fun hwrong => hsize hwrong.2]
  | _ => cases hblocks

/-! ### Frames -/

theorem le_output_provide (buffers : Buffers) (input output : Nat) :
    output ≤ (buffers.provide input output).output := by
  unfold Buffers.provide
  simp only
  generalize (if Buffers.excess * (input + output) ≤ buffers.input + buffers.output then
    buffers.oversized + 1 else 0) = oversized
  split
  · exact Nat.le_refl _
  · rename_i hkept
    simp only [not_or, Nat.not_lt] at hkept
    exact hkept.2.1

/-- The room that is asked for is enough. -/
theorem Plan.suffices_of_outputSize {header : Header} {size : Nat} {atOnce : Bool}
    (hsize : outputSize (max header.window leastWindow) header.blockLimit header.contentSize ≤ size) :
    Plan.Suffices ⟨header, size, atOnce⟩ := by
  have hlimit : header.blockLimit ≤ min (min (max header.window leastWindow) Literals.blockLimit)
      header.blockLimit := by
    have : header.blockLimit = min header.window Literals.blockLimit := rfl
    omega
  unfold outputSize at hsize
  simp only at hsize
  unfold Suffices
  cases hdeclared : header.contentSize with
  | none =>
    simp only [hdeclared, Option.map_none, Option.getD_none] at hsize
    right
    show header.window + header.blockLimit ≤ size
    omega
  | some n =>
    simp only [hdeclared, Option.map_some, Option.getD_some] at hsize
    by_cases hn : n ≤ size
    · exact .inl ⟨n, hn, rfl⟩
    · right
      show header.window + header.blockLimit ≤ size
      omega

/-- A plan provides what is needed, whatever buffers there are already. -/
theorem exists_plan {header : Header} (hdictionary : ¬ header.dictionary = true)
    (hwindow : ¬ windowLimit < header.window) (buffers : Buffers) (front s : Source) :
    ∃ p buffers', plan buffers header front s = .ok (p, buffers') ∧ p.header = header ∧ p.Suffices := by
  unfold plan
  simp only
  rw [if_neg hdictionary]
  split
  · rename_i honce
    refine ⟨_, _, rfl, rfl, .inl ?_⟩
    have hfew := (Bool.and_eq_true_iff.mp honce).1
    cases hsize : header.contentSize with
    | none =>
      rw [hsize] at hfew
      cases hfew
    | some n =>
      rw [hsize] at hfew
      exact ⟨n, of_decide_eq_true hfew, rfl⟩
  · have hleast : ¬ windowLimit < max header.window leastWindow := by
      have : leastWindow ≤ windowLimit := by decide
      omega
    rw [if_neg hleast]
    exact ⟨_, _, rfl, rfl, Plan.suffices_of_outputSize (le_output_provide ..)⟩

/-- A frame of the current edition and a skippable one are recognised wherever in a chunk they begin. -/
theorem start_shift {b : Bytes} {kind : Start} (hkind : kind = .contents ∨ kind = .skippable)
    (hstart : start ⟨b, 0⟩ = kind) (taken : Nat) : start ⟨b, taken⟩ = kind := by
  have hmark : Mark kind (b.take 4) := by
    rcases start_cases ⟨b, 0⟩ with hmark | h | h | h
    · rw [hstart] at hmark
      exact hmark
    all_goals
      rw [hstart] at h
      rcases hkind with hkind | hkind <;> rw [hkind] at h <;> cases h
  refine start_congr (s := ⟨b, 0⟩) hmark hstart rfl fun e he => ?_
  rcases hkind with hkind | hkind <;> rw [hkind] at he <;> cases he

/-- **One frame** that keeps the rules holds what the format says, whatever buffers there are and wherever in
a chunk it begins. -/
theorem decode_of_format {b content rest : Bytes} (hframe : Format.frame b = .ok (content, rest))
    (buffers : Buffers) (taken : Nat) :
    ∃ buffers' taken', decode buffers ⟨b, taken⟩ = .ok (content, buffers', ⟨rest, taken'⟩) := by
  have hbehind : behindMagic ⟨b, taken⟩ = ⟨(behindMagic ⟨b, 0⟩).rest, taken + magic.length⟩ := rfl
  unfold Format.frame at hframe
  split at hframe
  · rename_i hstart
    obtain ⟨⟨header, s⟩, hread, hframe⟩ := bind_eq_ok_iff.mp hframe
    simp only at hframe
    obtain ⟨hdictionary, hframe⟩ := refuse_eq_ok_iff.mp hframe
    obtain ⟨hwindow, hframe⟩ := refuse_eq_ok_iff.mp hframe
    obtain ⟨⟨m, behind⟩, hblocks, hframe⟩ := bind_eq_ok_iff.mp hframe
    obtain ⟨s', hsum, hframe⟩ := bind_eq_ok_iff.mp hframe
    cases hframe
    obtain ⟨taken₁, hread⟩ := Header.isLocal_read.shift hread (taken + magic.length)
    obtain ⟨p, buffers', hplan, rfl, hp⟩ := exists_plan hdictionary hwindow buffers ⟨b, taken⟩
      ⟨s.rest, taken₁⟩
    obtain ⟨base, reach, taken₂, hblocks⟩ := blocks_of_format hp taken₁ hblocks (ready_start hp)
    obtain ⟨taken₃, hsum⟩ := readChecksum_shift hsum taken₂
    refine ⟨buffers', taken₃, ?_⟩
    rw [decode, start_shift (.inl rfl) hstart taken, hbehind]
    exact decodeContents_of_parts hread hplan hblocks hsum
  · rename_i hstart
    obtain ⟨⟨_, _, s⟩, hskip, hframe⟩ := bind_eq_ok_iff.mp hframe
    cases hframe
    obtain ⟨⟨size, s₁⟩, hsize, hskip⟩ := bind_eq_ok_iff.mp hskip
    obtain ⟨⟨_, s₂⟩, hbody, hskip⟩ := bind_eq_ok_iff.mp hskip
    cases hskip
    obtain ⟨taken₁, hsize⟩ := (isLocal_take _).shift hsize (taken + magic.length)
    obtain ⟨taken₂, hbody⟩ := (isLocal_take _).shift hbody taken₁
    refine ⟨buffers.provide leastInput (outputSize leastWindow 0 (some (Bytes.toNatLE size))), taken₂, ?_⟩
    rw [decode, start_shift (.inr rfl) hstart taken, hbehind]
    simp only [skip, hsize, hbody, bind, Except.bind, pure, Except.pure]
  · cases hframe

end Frame

/-- **Frames that keep the rules are decoded**, whatever buffers there are and wherever in a chunk they
begin. -/
theorem decodeAll_of_contents {b content : Bytes} (h : Format.contents b = .ok content) (buffers : Buffers)
    (taken : Nat) : decodeAll buffers ⟨b, taken⟩ = .ok content := by
  fun_induction Format.contents b generalizing content buffers taken with
  | case1 b hend =>
    cases h
    rw [decodeAll.eq_def, if_pos hend]
  | case2 => cases h
  | case3 b hend piece rest hframe ih =>
    cases hrest : Format.contents rest with
    | error e =>
      rw [hrest] at h
      cases h
    | ok tail =>
      rw [hrest] at h
      cases h
      obtain ⟨buffers', taken', hfirst⟩ := Frame.decode_of_format hframe buffers taken
      rw [decodeAll_of_decode hfirst, ih hrest]
      rfl

end SnapStore.Zstandard
