import SnapStore.Proofs.Zstandard.Extent

namespace SnapStore.Zstandard

/-!
# What follows a frame

A frame that can be decoded is decoded in the same way whatever follows it.  Most of its parts do not even
depend on where they stand in a chunk.

* `Source.IsLocal` — nothing is looked at but the bytes that are taken.
* `Frame.blocks_followed`, `Frame.isAtOnce_followed` — the blocks of a frame, and whether they are all in
  sight, are the same in front of further bytes.
* `Frame.decode_followed` — so is the frame, with the buffers that it leaves.
* `decodeAll_followed` — what is decoded of frames in front of other bytes.
-/

namespace Source

variable {α β : Type}

/-- The source with further bytes behind it. -/
def followedBy (s : Source) (b : Bytes) : Source := ⟨s.rest ++ b, s.taken⟩

/-- Nothing is looked at but the bytes that are taken: it makes no difference what follows them and what
stands before them. -/
def IsLocal (f : Source → Except Fault (α × Source)) : Prop :=
  ∀ s x s', f s = .ok (x, s') → ∃ front, s.rest = front ++ s'.rest ∧
    ∀ b n, f ⟨front ++ b, n⟩ = .ok (x, ⟨b, n + front.length⟩)

theorem isLocal_take (n : Nat) : IsLocal (take n) := by
  intro s front s' h
  obtain ⟨hrest, rfl⟩ := eq_append_of_take h
  exact ⟨front, hrest, fun b n => take_append front b n⟩

theorem isLocal_pure (x : α) : IsLocal fun s => .ok (x, s) := by
  intro s y s' h
  cases h
  exact ⟨[], rfl, fun b n => rfl⟩

/-- What is local is composed of local parts. -/
theorem IsLocal.bind {f : Source → Except Fault (α × Source)} {g : α × Source → Except Fault (β × Source)}
    (hf : IsLocal f) (hg : ∀ x, IsLocal fun s => g (x, s)) : IsLocal fun s => f s >>= g := by
  intro s y s'' h
  obtain ⟨⟨x, s'⟩, hx, hy⟩ := bind_eq_ok_iff.mp h
  obtain ⟨front, hfront, hf⟩ := hf s x s' hx
  obtain ⟨front', hfront', hg⟩ := hg x s' y s'' hy
  refine ⟨front ++ front', by rw [hfront, hfront', List.append_assoc], fun b n => ?_⟩
  have hfirst : f ⟨front ++ front' ++ b, n⟩ = .ok (x, ⟨front' ++ b, n + front.length⟩) := by
    rw [List.append_assoc]
    exact hf ..
  have hsecond : g (x, ⟨front' ++ b, n + front.length⟩) = .ok (y, ⟨b, n + front.length + front'.length⟩) :=
    hg ..
  show (f _ >>= g) = _
  rw [hfirst, List.length_append, ← Nat.add_assoc]
  exact hsecond

variable {f : Source → Except Fault (α × Source)} {s s' : Source} {x : α}

theorem IsLocal.followed (hf : IsLocal f) (h : f s = .ok (x, s')) (b : Bytes) :
    f (s.followedBy b) = .ok (x, s'.followedBy b) := by
  obtain ⟨front, hfront, hlocal⟩ := hf s x s' h
  -- where the rest begins is known from the source itself
  have hs : s = ⟨front ++ s'.rest, s.taken⟩ := by rw [← hfront]
  have hs' : s' = ⟨s'.rest, s.taken + front.length⟩ := by
    rw [hs, hlocal] at h
    exact (Prod.mk.inj (Except.ok.inj h)).2.symm
  rw [followedBy, hfront, List.append_assoc, hlocal, hs']
  rfl

/-- Where a source stands makes no difference. -/
theorem IsLocal.shift (hf : IsLocal f) (h : f s = .ok (x, s')) (n : Nat) :
    ∃ n', f ⟨s.rest, n⟩ = .ok (x, ⟨s'.rest, n'⟩) := by
  obtain ⟨front, hfront, hlocal⟩ := hf s x s' h
  exact ⟨n + front.length, by rw [hfront, hlocal]⟩

theorem sight_followedBy (s : Source) (b : Bytes) : (s.followedBy b).sight = s.sight := rfl

theorem take_of_le {n : Nat} (h : n ≤ s.rest.length) (b : Bytes) :
    (s.followedBy b).rest.take n = s.rest.take n :=
  List.take_append_of_le_length h

theorem takeInSight_of_le {n : Nat} (h : n ≤ s.rest.length) (b : Bytes) :
    (s.followedBy b).takeInSight n = ((s.takeInSight n).1, (s.takeInSight n).2.followedBy b) := by
  have hle : min n s.sight ≤ s.rest.length := by omega
  simp only [takeInSight, sight_followedBy, List.splitAt_eq]
  simp only [followedBy, List.take_append_of_le_length hle, List.drop_append_of_le_length hle]

theorem takeBuffered_followed {size n : Nat} {front : Bytes} (h : s.takeBuffered size n = .ok (front, s'))
    (b : Bytes) : (s.followedBy b).takeBuffered size n = .ok (front, s'.followedBy b) := by
  have htake := take_of_takeBuffered h
  have hlength := (eq_append_of_take htake).1
  have hle : min n s.sight ≤ s.rest.length := by
    have := congrArg List.length hlength
    have := (eq_append_of_take htake).2
    rw [List.length_append] at *
    omega
  unfold takeBuffered at h ⊢
  rw [sight_followedBy, take_of_le hle]
  simp only at h ⊢
  rw [if_neg (refuse_eq_ok_iff.mp h).1]
  exact (isLocal_take n).followed htake b

end Source

open Source

namespace Frame

/-! ### Headers and checksums -/

theorem Header.Fields.isLocal_read : IsLocal Header.Fields.read :=
  (isLocal_take 1).bind fun _ => (isLocal_take _).bind fun _ => (isLocal_take _).bind fun _ =>
    (isLocal_take _).bind fun _ => isLocal_pure _

theorem Header.isLocal_read : IsLocal Header.read := by
  refine Header.Fields.isLocal_read.bind fun fields => ?_
  cases hfields : Header.ofFields fields with
  | error e =>
    intro s x s' h
    simp only [hfields] at h
    cases h
  | ok header =>
    simp only [hfields]
    exact isLocal_pure header

theorem eq_of_map_unit {x : Except Fault Source} {s : Source} (h : x.map ((), ·) = .ok ((), s)) :
    x = .ok s := by
  cases x with
  | error e => cases h
  | ok rest =>
    cases h
    rfl

theorem isLocal_readChecksum (header : Header) (content : Bytes) :
    IsLocal fun s => (readChecksum header content s).map ((), ·) := by
  unfold readChecksum
  split
  · intro s x s' h
    simp only at h
    cases htake : s.take checksumLength with
    | error e =>
      rw [htake] at h
      cases h
    | ok r =>
      obtain ⟨sum, rest⟩ := r
      simp only [htake] at h
      split at h
      · rename_i hsum
        cases h
        obtain ⟨front, hfront, hlocal⟩ := isLocal_take checksumLength s sum s' htake
        refine ⟨front, hfront, fun b n => ?_⟩
        simp only [hlocal, if_pos hsum, Except.map]
      · cases h
  · exact isLocal_pure ()

/-! ### Blocks -/

variable {p : Plan} {s s' : Source} {h after : History}

theorem readRaw_followed {n : Nat} (hr : readRaw p n s h = .ok (after, s')) (b : Bytes) :
    readRaw p n (s.followedBy b) h = .ok (after, s'.followedBy b) := by
  fun_induction readRaw p n s h with
  | case1 s h =>
    cases hr
    rw [readRaw, if_pos rfl]
  | case2 => cases hr
  | case3 => cases hr
  | case4 n s h hn piece mid hp hne _ h' happend ih =>
    -- the piece is not cut short by the end of the source
    have hle : n ≤ s.rest.length := by
      have hsplit := takeInSight_eq_append n s
      have hpiece := length_takeInSight_le n s
      obtain ⟨front, hmid, hlength⟩ := readRaw_eq_append hr
      rw [hp] at hsplit hpiece
      simp only at hsplit hpiece
      rw [hsplit, hmid, List.length_append, List.length_append]
      omega
    rw [readRaw, if_neg hn]
    simp only [takeInSight_of_le hle, hp, dif_neg hne, happend]
    exact ih hr

theorem readBlock_followed {header : Block.Header} (hr : readBlock p header s h = .ok (after, s'))
    (b : Bytes) : readBlock p header (s.followedBy b) h = .ok (after, s'.followedBy b) := by
  unfold readBlock at hr ⊢
  split at hr
  · cases hr
  rename_i stored rest htake
  rw [(isLocal_take _).followed htake b]
  split at hr
  · cases hr
  rename_i mid hdecode
  simp only [hdecode]
  obtain ⟨hfits, hr⟩ := refuse_eq_ok_iff.mp hr
  rw [if_neg hfits]
  cases hr
  rfl

theorem readContents_followed {header : Block.Header} (hr : readContents p header s h = .ok (after, s'))
    (b : Bytes) : readContents p header (s.followedBy b) h = .ok (after, s'.followedBy b) := by
  unfold readContents at hr ⊢
  obtain ⟨hlimit, hr⟩ := refuse_eq_ok_iff.mp hr
  rw [if_neg hlimit]
  split at hr
  · rename_i hskips
    cases hr
    rw [if_pos hskips]
  rename_i hskips
  rw [if_neg hskips]
  split at hr
  · rename_i hraw
    rw [if_pos hraw]
    exact readRaw_followed hr b
  · rename_i hraw
    rw [if_neg hraw]
    exact readBlock_followed hr b

/-- What the decoding of blocks does first. -/
theorem blocks_of_parts {behind rest : Source} {raw : Bytes} {header : Block.Header} {mid : History}
    (htake : s.take Block.Header.length = .ok (raw, behind))
    (hheader : Block.Header.ofBytes raw = .ok header)
    (hread : readContents p header behind h = .ok (mid, rest)) :
    blocks p s h = if ! header.last then blocks p rest mid
      else if ! p.skips header ∧ p.header.contentSize.any (· ≠ mid.output.content.size) then
        .error .corrupted
      else .ok (mid, rest) := by
  rw [blocks.eq_def]
  split
  · rename_i he
    rw [htake] at he
    cases he
  rename_i he
  rw [htake] at he
  cases he
  simp only [hheader]
  split
  · rename_i hc
    rw [hread] at hc
    cases hc
  · rename_i hc
    rw [hread] at hc
    cases hc
    rfl

theorem blocks_of_fault {behind : Source} {raw : Bytes} {header : Block.Header} {e : Fault}
    (htake : s.take Block.Header.length = .ok (raw, behind))
    (hheader : Block.Header.ofBytes raw = .ok header)
    (hread : readContents p header behind h = .error e) : blocks p s h = .error e := by
  rw [blocks.eq_def]
  split
  · rename_i he
    rw [htake] at he
    cases he
  rename_i he
  rw [htake] at he
  cases he
  simp only [hheader]
  split
  · rename_i hc
    rw [hread] at hc
    cases hc
    rfl
  · rename_i hc
    rw [hread] at hc
    cases hc

/-- **The blocks of a frame** are the same whatever follows them. -/
theorem blocks_followed (hb : blocks p s h = .ok (after, s')) (b : Bytes) :
    blocks p (s.followedBy b) h = .ok (after, s'.followedBy b) := by
  fun_induction blocks p s h with
  | case4 s h raw mid head header hheader h' rest body hlast ih =>
    rw [blocks_of_parts ((isLocal_take _).followed head b) hheader (readContents_followed body b),
      if_pos hlast]
    exact ih hb
  | case6 s h raw mid head header hheader h' rest body hlast hsize =>
    cases hb
    rw [blocks_of_parts ((isLocal_take _).followed head b) hheader (readContents_followed body b),
      if_neg hlast, if_neg hsize]
  | _ => cases hb

/-! ### What is in sight -/

/-- What looking for the end of the blocks does first. -/
theorem isWhole_of_parts {tail sight : Nat} {b behind stored rest : Bytes} {raw : Bytes}
    {header : Block.Header} (hhead : Bytes.split? Block.Header.length b = some (raw, behind))
    (hheader : Block.Header.ofBytes raw = .ok header)
    (hbody : Bytes.split? header.stored behind = some (stored, rest)) :
    isWhole tail sight b = if sight < Block.Header.length + header.stored then false
      else if header.last then
        Block.Header.length + header.stored + tail ≤ sight && (Bytes.split? tail rest).isSome
      else isWhole tail (sight - (Block.Header.length + header.stored)) rest := by
  rw [isWhole.eq_def]
  split
  · rename_i he
    rw [hhead] at he
    cases he
  rename_i he
  rw [hhead] at he
  cases he
  simp only [hheader]
  split
  · rename_i hc
    rw [hbody] at hc
    cases hc
  · rename_i hc
    rw [hbody] at hc
    cases hc
    rfl

/-- The same of a block that can be read, with further bytes behind it. -/
theorem isWhole_of_contents {tail sight : Nat} {raw : Bytes} {header : Block.Header} {behind rest : Source}
    {mid : History} (htake : s.take Block.Header.length = .ok (raw, behind))
    (hheader : Block.Header.ofBytes raw = .ok header)
    (hread : readContents p header behind h = .ok (mid, rest)) (b : Bytes) :
    isWhole tail sight (s.rest ++ b) = if sight < Block.Header.length + header.stored then false
      else if header.last then
        Block.Header.length + header.stored + tail ≤ sight && (Bytes.split? tail (rest.rest ++ b)).isSome
      else isWhole tail (sight - (Block.Header.length + header.stored)) (rest.rest ++ b) := by
  obtain ⟨hs, hraw⟩ := eq_append_of_take htake
  obtain ⟨stored, hbehind, hstored⟩ := readContents_eq_append hread
  have hhead : Bytes.split? Block.Header.length (s.rest ++ b) = some (raw, behind.rest ++ b) := by
    rw [hs, List.append_assoc, ← hraw]
    exact Bytes.split?_append ..
  have hbody : Bytes.split? header.stored (behind.rest ++ b) = some (stored, rest.rest ++ b) := by
    rw [hbehind, List.append_assoc, ← hstored]
    exact Bytes.split?_append ..
  exact isWhole_of_parts hhead hheader hbody

theorem isSome_split?_iff {n : Nat} {b : Bytes} : (Bytes.split? n b).isSome = true ↔ n ≤ b.length := by
  rw [Option.isSome_iff_ne_none, ne_eq, Bytes.split?_eq_none_iff, Nat.not_lt]

/-- Blocks that can be decoded end where they end, whatever follows. -/
theorem isWhole_followed {tail sight : Nat} (hb : blocks p s h = .ok (after, s'))
    (htail : tail ≤ s'.rest.length) (b : Bytes) :
    isWhole tail sight (s.rest ++ b) = isWhole tail sight s.rest := by
  -- nothing behind it is a case of something behind it
  suffices ∀ c, isWhole tail sight (s.rest ++ b) = isWhole tail sight (s.rest ++ c) by
    simpa only [List.append_nil] using this []
  intro c
  fun_induction blocks p s h generalizing sight with
  | case4 s h raw mid head header hheader h' rest body hlast ih =>
    rw [isWhole_of_contents head hheader body b, isWhole_of_contents head hheader body c, ih hb]
    simp only [Bool.not_eq_true'] at hlast
    simp only [hlast, Bool.false_eq_true, if_false]
  | case6 s h raw mid head header hheader h' rest body hlast hsize =>
    cases hb
    have hsome (c : Bytes) : (Bytes.split? tail (s'.rest ++ c)).isSome = true := by
      rw [isSome_split?_iff, List.length_append]
      omega
    simp only [Bool.not_eq_true', Bool.not_eq_false] at hlast
    simp only [isWhole_of_contents head hheader body, hsome, hlast, if_true]
  | _ => cases hb

/-- Whether a frame is decoded at once is seen without what follows it. -/
theorem isAtOnce_followed {header : Header} {front : Source} (hb : blocks p s h = .ok (after, s'))
    (htail : (if header.checksum then checksumLength else 0) ≤ s'.rest.length) (b : Bytes) :
    isAtOnce header (front.followedBy b) (s.followedBy b) = isAtOnce header front s := by
  simp only [isAtOnce, sight_followedBy]
  rw [show (s.followedBy b).rest = s.rest ++ b from rfl, isWhole_followed hb htail b]
  rfl

theorem plan_followed {buffers : Buffers} {header : Header} {front : Source}
    (hb : blocks p s h = .ok (after, s'))
    (htail : (if header.checksum then checksumLength else 0) ≤ s'.rest.length) (b : Bytes) :
    plan buffers header (front.followedBy b) (s.followedBy b) = plan buffers header front s := by
  unfold plan
  rw [isAtOnce_followed hb htail b]

/-! ### Frames of every kind -/

/-- The bytes of a checksum are there. -/
theorem length_of_readChecksum {header : Header} {content : Bytes}
    (hsum : readChecksum header content s = .ok s') :
    (if header.checksum then checksumLength else 0) ≤ s.rest.length := by
  unfold readChecksum at hsum
  split at hsum
  · rename_i hchecksum
    rw [if_pos hchecksum]
    split at hsum
    · cases hsum
    · rename_i htake
      have := Source.take_length htake
      omega
  · rename_i hchecksum
    rw [if_neg hchecksum]
    exact Nat.zero_le _

theorem readChecksum_followed {header : Header} {content : Bytes}
    (hsum : readChecksum header content s = .ok s') (b : Bytes) :
    readChecksum header content (s.followedBy b) = .ok (s'.followedBy b) := by
  have hunit : (readChecksum header content s).map ((), ·) = .ok ((), s') := by
    rw [hsum]
    rfl
  exact eq_of_map_unit ((isLocal_readChecksum header content).followed hunit b)

/-- Where a checksum stands makes no difference. -/
theorem readChecksum_shift {header : Header} {content : Bytes}
    (hsum : readChecksum header content s = .ok s') (n : Nat) :
    ∃ n', readChecksum header content ⟨s.rest, n⟩ = .ok ⟨s'.rest, n'⟩ := by
  have hunit : (readChecksum header content s).map ((), ·) = .ok ((), s') := by
    rw [hsum]
    rfl
  obtain ⟨n', hlocal⟩ := (isLocal_readChecksum header content).shift hunit n
  exact ⟨n', eq_of_map_unit hlocal⟩

theorem decodeContents_followed {buffers buffers' : Buffers} {front : Source} {content : Bytes}
    (hd : decodeContents buffers front s = .ok (content, buffers', s')) (b : Bytes) :
    decodeContents buffers (front.followedBy b) (s.followedBy b) =
      .ok (content, buffers', s'.followedBy b) := by
  obtain ⟨⟨header, s₁⟩, hheader, hd⟩ := bind_eq_ok_iff.mp hd
  obtain ⟨⟨p, _⟩, hplan, hd⟩ := bind_eq_ok_iff.mp hd
  obtain ⟨⟨history, s₂⟩, hblocks, hd⟩ := bind_eq_ok_iff.mp hd
  obtain ⟨s₃, hsum, hd⟩ := bind_eq_ok_iff.mp hd
  cases hd
  refine decodeContents_of_parts (Header.isLocal_read.followed hheader b) ?_ (blocks_followed hblocks b)
    (readChecksum_followed hsum b)
  rw [plan_followed hblocks (length_of_readChecksum hsum) b]
  exact hplan

theorem skip_followed {buffers buffers' : Buffers} {content : Bytes}
    (hd : skip buffers s = .ok (content, buffers', s')) (b : Bytes) :
    skip buffers (s.followedBy b) = .ok (content, buffers', s'.followedBy b) := by
  obtain ⟨⟨size, s₁⟩, hsize, hd⟩ := bind_eq_ok_iff.mp hd
  obtain ⟨⟨_, s₂⟩, hbody, hd⟩ := bind_eq_ok_iff.mp hd
  cases hd
  simp only [skip, (isLocal_take _).followed hsize b, (isLocal_take _).followed hbody b, bind, Except.bind,
    pure, Except.pure]

end Frame

/-! ### Frames of earlier editions -/

namespace Edition

variable {e : Edition} {s s' : Source}

theorem isLocal_readExponent : IsLocal readExponent := by
  refine (isLocal_take 1).bind fun flags => ?_
  simp only
  split
  · intro s x s' h
    cases h
  · exact isLocal_pure _

theorem isLocal_readSized : IsLocal readSized := by
  refine (isLocal_take 1).bind fun flags => (isLocal_take _).bind fun size => ?_
  simp only
  split
  · intro s x s' h
    cases h
  · exact isLocal_pure _

theorem isLocal_readHeader (e : Edition) : IsLocal e.readHeader := by
  cases e with
  | fourth | fifth => exact isLocal_readExponent
  | sixth => exact isLocal_readSized
  | seventh =>
    refine Frame.Header.Fields.isLocal_read.bind fun fields => ?_
    cases hfields : ofFields fields with
    | error fault =>
      intro s x s' h
      simp only [hfields] at h
      cases h
    | ok header =>
      simp only [hfields]
      exact isLocal_pure header

/-- A header of nothing ends the blocks. -/
theorem blocks_of_end {buffers : Buffers} {header : Header} {raw content : Bytes} {behind : Source}
    {used : Nat} (hhead : s.takeBuffered buffers.input 3 = .ok (raw, behind))
    (hsum : ¬ ((BlockHeader.ofBytes raw).kind = .none ∧ header.checksum ∧
      (BlockHeader.ofBytes raw).sum ≠ checksumOf content))
    (hend : (BlockHeader.ofBytes raw).stored = 0) :
    blocks buffers header s content used = .ok (content, behind) := by
  rw [blocks.eq_def]
  split
  · rename_i he
    rw [hhead] at he
    cases he
  · rename_i he
    rw [hhead] at he
    cases he
    simp only [if_neg hsum, if_pos hend]

/-- The first block is decoded first. -/
theorem blocks_of_parts {buffers : Buffers} {header : Header} {raw stored content piece : Bytes}
    {behind rest : Source} {used : Nat} (hhead : s.takeBuffered buffers.input 3 = .ok (raw, behind))
    (hsum : ¬ ((BlockHeader.ofBytes raw).kind = .none ∧ header.checksum ∧
      (BlockHeader.ofBytes raw).sum ≠ checksumOf content))
    (hmore : ¬ (BlockHeader.ofBytes raw).stored = 0)
    (hbody : behind.takeBuffered buffers.input (BlockHeader.ofBytes raw).stored = .ok (stored, rest))
    (hpiece : decodeBlock (BlockHeader.ofBytes raw).kind stored (buffers.output - used) = .ok piece) :
    blocks buffers header s content used = blocks buffers header rest (content ++ piece)
      (if piece ≠ [] ∧ buffers.output < used + piece.length + header.block then 0
        else used + piece.length) := by
  rw [blocks.eq_def]
  split
  · rename_i he
    rw [hhead] at he
    cases he
  rename_i he
  rw [hhead] at he
  cases he
  simp only [if_neg hsum, if_neg hmore]
  split
  · rename_i hc
    rw [hbody] at hc
    cases hc
  · rename_i hc
    rw [hbody] at hc
    cases hc
    simp only [hpiece]

theorem blocks_followed {buffers : Buffers} {header : Header} {content out : Bytes} {used : Nat}
    (hb : blocks buffers header s content used = .ok (out, s')) (b : Bytes) :
    blocks buffers header (s.followedBy b) content used = .ok (out, s'.followedBy b) := by
  fun_induction blocks buffers header s content used with
  | case3 s content used raw behind head block hsum hend =>
    cases hb
    exact blocks_of_end (takeBuffered_followed head b) hsum hend
  | case6 s content used raw behind head block hsum hmore stored rest body piece hpiece used' isFull ih =>
    rw [blocks_of_parts (takeBuffered_followed head b) hsum hmore (takeBuffered_followed body b) hpiece]
    exact ih hb
  | _ => cases hb

theorem decode_followed {earlier : Option Buffers} {content : Bytes} {after : Buffers}
    (hd : e.decode earlier s = .ok (content, after, s')) (b : Bytes) :
    e.decode earlier (s.followedBy b) = .ok (content, after, s'.followedBy b) := by
  obtain ⟨⟨header, s₁⟩, hheader, hd⟩ := bind_eq_ok_iff.mp hd
  obtain ⟨⟨_, s₂⟩, hblocks, hd⟩ := bind_eq_ok_iff.mp hd
  cases hd
  simp only [decode, (isLocal_readHeader e).followed hheader b, blocks_followed hblocks b, bind, Except.bind,
    pure, Except.pure]

end Edition

/-! ### Sequences of frames -/

namespace Frame

variable {s s' : Source}

/-- Whether an earlier edition is in sight. -/
def IsSeen (s : Source) : Prop := (s.rest.take (min leastSight s.sight)).length = leastSight

/-- The first bytes say what a frame is, if only an earlier edition is in sight. -/
theorem start_congr {t : Source} {kind : Start} (hkind : Mark kind (s.rest.take 4)) (hstart : start s = kind)
    (hfront : t.rest.take 4 = s.rest.take 4) (hsight : ∀ e, kind = .earlier e → IsSeen s → IsSeen t) :
    start t = kind := by
  simp only [start, hfront] at hstart ⊢
  by_cases hmagic : s.rest.take 4 = magic
  · rw [if_pos hmagic] at hstart ⊢
    exact hstart
  rw [if_neg hmagic] at hstart ⊢
  by_cases hshort : (s.rest.take 4).isPrefixOf magic = true
  · rw [if_pos hshort] at hstart
    subst hstart
    cases hkind
  rw [if_neg hshort] at hstart ⊢
  cases hcons : s.rest.take 4 with
  | nil =>
    have hlength := hkind.length_eq
    rw [hcons] at hlength
    cases hlength
  | cons x tail =>
    rw [hcons] at hmagic hkind
    simp only [hcons] at hstart ⊢
    by_cases hskip : x &&& 0xf0 = 0x50 ∧ tail.isPrefixOf skippableMagicTail = true
    · rw [if_pos hskip] at hstart ⊢
      exact hstart
    rw [if_neg hskip] at hstart ⊢
    by_cases hseen : IsSeen s
    · have hseen' : IsSeen t := by
        cases hkind with
        | contents => exact absurd rfl hmagic
        | skippable x hx => exact absurd ⟨hx, by decide⟩ hskip
        | earlier _ e h => exact hsight e rfl hseen
      rw [IsSeen] at hseen hseen'
      rw [if_pos hseen] at hstart
      rw [if_pos hseen']
      exact hstart
    · rw [IsSeen] at hseen
      rw [if_neg hseen] at hstart
      subst hstart
      cases hkind

/-- What can be decoded is recognised, whatever follows it. -/
theorem start_followed {kind : Start} (hkind : Mark kind (s.rest.take 4)) (hstart : start s = kind)
    (b : Bytes) :
    start (s.followedBy b) = kind := by
  refine start_congr hkind hstart ?_ fun e _ hseen => ?_
  · have hlength := hkind.length_eq
    rw [List.length_take] at hlength
    exact take_of_le (by omega) b
  · -- what is in sight stays in sight
    rw [IsSeen, List.length_take] at hseen
    rw [IsSeen, sight_followedBy, take_of_le (by omega), List.length_take, hseen]

/-- **One frame** is decoded in the same way whatever follows it, and leaves the same buffers. -/
theorem decode_followed {buffers buffers' : Buffers} {content : Bytes}
    (hd : decode buffers s = .ok (content, buffers', s')) (b : Bytes) :
    decode buffers (s.followedBy b) = .ok (content, buffers', s'.followedBy b) := by
  have hmark := mark_of_decode hd
  have hstart := start_followed hmark rfl b
  have hbehind : behindMagic (s.followedBy b) = (behindMagic s).followedBy b := by
    have hlength := hmark.length_eq
    rw [List.length_take] at hlength
    have hle : magic.length ≤ s.rest.length := by
      show 4 ≤ _
      omega
    simp only [behindMagic, followedBy, List.drop_append_of_le_length hle]
  unfold decode at hd ⊢
  rw [hstart, hbehind]
  cases hkind : start s with
  | contents =>
    simp only [hkind] at hd ⊢
    exact decodeContents_followed hd b
  | skippable =>
    simp only [hkind] at hd ⊢
    exact skip_followed hd b
  | earlier e =>
    simp only [hkind] at hd ⊢
    obtain ⟨⟨_, _, s₁⟩, he, hd⟩ := bind_eq_ok_iff.mp hd
    cases hd
    simp only [Edition.decode_followed he b, bind, Except.bind, pure, Except.pure]
  | outdated | short | unknown =>
    simp only [hkind] at hd
    cases hd

end Frame

/-- **Frames in front of other bytes.** They are decoded as on their own, and leave some buffers at some
place. -/
theorem decodeAll_followed {buffers : Buffers} {s : Source} {content : Bytes}
    (hd : decodeAll buffers s = .ok content) :
    ∃ buffers' taken, ∀ b, decodeAll buffers (s.followedBy b) =
      (decodeAll buffers' ⟨b, taken⟩).map (content ++ ·) := by
  fun_induction decodeAll buffers s generalizing content with
  | case1 buffers s hend =>
    cases hd
    refine ⟨buffers, s.taken, fun b => ?_⟩
    have hrest : s.followedBy b = ⟨b, s.taken⟩ := by
      rw [followedBy, List.isEmpty_iff.mp hend, List.nil_append]
    rw [hrest]
    cases decodeAll buffers ⟨b, s.taken⟩ <;> rfl
  | case2 => cases hd
  | case3 buffers s hend piece after rest hframe ih =>
    cases hrest : decodeAll after rest with
    | error e =>
      rw [hrest] at hd
      cases hd
    | ok tail =>
      rw [hrest] at hd
      cases hd
      obtain ⟨buffers', taken, htail⟩ := ih hrest
      refine ⟨buffers', taken, fun b => ?_⟩
      rw [decodeAll_of_decode (Frame.decode_followed hframe b), htail b]
      cases decodeAll buffers' ⟨b, taken⟩ with
      | error e => rfl
      | ok out => simp only [Except.map, List.append_assoc]

end SnapStore.Zstandard
