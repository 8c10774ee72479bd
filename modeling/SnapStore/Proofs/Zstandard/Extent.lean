import SnapStore.Proofs.Zstandard.RoundTrip

namespace SnapStore.Zstandard

/-!
# How far a frame extends

Every part of a frame says in front how long it is.  So two decoders that get through a frame take the
same bytes, although one of them may see less of what follows and go another way about it: at once or
block by block, with larger or smaller buffers.  A source that ends inside a frame is therefore never
taken for a whole one.

* `Source.SameCut` — the same bytes have been taken off two sources.
* `Frame.Mark` — what a frame begins with, which says what kind of frame it is.
* `Frame.blocks_sameCut`, `Frame.decode_sameCut` — of two sources of which one ends earlier, the same
  blocks and the same frames are taken.
* `IsFrame` — a byte string is one frame, and nothing else.
* `exists_fault_of_take` — no strict prefix of a frame can be decompressed.
-/

/-! ### Sources -/

namespace Source

variable {s s' s'' t t' t'' : Source}

/-- The same bytes have been taken off two sources. -/
def SameCut (s s' t t' : Source) : Prop :=
  ∃ front, s.rest = front ++ s'.rest ∧ t.rest = front ++ t'.rest

theorem SameCut.refl (s t : Source) : SameCut s s t t := ⟨[], rfl, rfl⟩

theorem SameCut.trans (h : SameCut s s' t t') (h' : SameCut s' s'' t' t'') : SameCut s s'' t t'' := by
  obtain ⟨front, hs, ht⟩ := h
  obtain ⟨front', hs', ht'⟩ := h'
  exact ⟨front ++ front', by rw [hs, hs', List.append_assoc], by rw [ht, ht', List.append_assoc]⟩

/-- Of a source that ends earlier, what is left ends earlier. -/
theorem SameCut.isPrefix (h : SameCut s s' t t') (hbegins : t.rest <+: s.rest) :
    t'.rest <+: s'.rest := by
  obtain ⟨front, hs, ht⟩ := h
  rw [hs, ht] at hbegins
  exact (List.prefix_append_right_inj front).mp hbegins

/-- As many bytes off two sources of which one ends earlier are the same bytes. -/
theorem sameCut_of_length {front front' : Bytes} (hbegins : t.rest <+: s.rest)
    (hs : s.rest = front ++ s'.rest) (ht : t.rest = front' ++ t'.rest)
    (hlen : front.length = front'.length) : front = front' ∧ SameCut s s' t t' := by
  have hfront : front = front' := by
    have h : front <+: s.rest := ⟨s'.rest, hs.symm⟩
    have h' : front' <+: s.rest := List.IsPrefix.trans ⟨t'.rest, ht.symm⟩ hbegins
    exact (List.prefix_of_prefix_length_le h h' (Nat.le_of_eq hlen)).eq_of_length hlen
  exact ⟨hfront, front, hs, by rw [ht, hfront]⟩

theorem eq_append_of_take {n : Nat} {front : Bytes} (h : s.take n = .ok (front, s')) :
    s.rest = front ++ s'.rest ∧ front.length = n := by
  unfold take at h
  split at h
  · rename_i hsplit
    cases h
    exact Bytes.eq_append_of_split? hsplit
  · cases h

theorem take_sameCut {n : Nat} {front front' : Bytes} (hbegins : t.rest <+: s.rest)
    (hs : s.take n = .ok (front, s')) (ht : t.take n = .ok (front', t')) :
    front = front' ∧ SameCut s s' t t' := by
  obtain ⟨hs, hlen⟩ := eq_append_of_take hs
  obtain ⟨ht, hlen'⟩ := eq_append_of_take ht
  exact sameCut_of_length hbegins hs ht (by omega)

theorem take_of_takeBuffered {size n : Nat} {front : Bytes}
    (h : s.takeBuffered size n = .ok (front, s')) : s.take n = .ok (front, s') := by
  simp only [takeBuffered] at h
  split at h
  · cases h
  · exact h

theorem takeInSight_eq_append (n : Nat) (s : Source) :
    s.rest = (s.takeInSight n).1 ++ (s.takeInSight n).2.rest := by
  simp only [takeInSight, List.splitAt_eq, List.take_append_drop]

theorem length_takeInSight_le (n : Nat) (s : Source) : (s.takeInSight n).1.length ≤ n := by
  simp only [takeInSight, List.splitAt_eq, List.length_take]
  omega

end Source

open Source

namespace Frame

/-! ### Headers -/

theorem Header.Fields.read_sameCut {s s' t t' : Source} {f g : Header.Fields}
    (hbegins : t.rest <+: s.rest) (hs : Header.Fields.read s = .ok (f, s'))
    (ht : Header.Fields.read t = .ok (g, t')) : f = g ∧ SameCut s s' t t' := by
  -- the flags, which come first, say how long the other fields are
  obtain ⟨⟨flags, s₁⟩, hs₁, hs⟩ := bind_eq_ok_iff.mp hs
  obtain ⟨⟨window, s₂⟩, hs₂, hs⟩ := bind_eq_ok_iff.mp hs
  obtain ⟨⟨dictionary, s₃⟩, hs₃, hs⟩ := bind_eq_ok_iff.mp hs
  obtain ⟨⟨size, s₄⟩, hs₄, hs⟩ := bind_eq_ok_iff.mp hs
  obtain ⟨⟨_, t₁⟩, ht₁, ht⟩ := bind_eq_ok_iff.mp ht
  obtain ⟨⟨_, t₂⟩, ht₂, ht⟩ := bind_eq_ok_iff.mp ht
  obtain ⟨⟨_, t₃⟩, ht₃, ht⟩ := bind_eq_ok_iff.mp ht
  obtain ⟨⟨_, t₄⟩, ht₄, ht⟩ := bind_eq_ok_iff.mp ht
  cases hs
  cases ht
  obtain ⟨rfl, h₁⟩ := take_sameCut hbegins hs₁ ht₁
  obtain ⟨rfl, h₂⟩ := take_sameCut (h₁.isPrefix hbegins) hs₂ ht₂
  have h₁₂ := h₁.trans h₂
  obtain ⟨rfl, h₃⟩ := take_sameCut (h₁₂.isPrefix hbegins) hs₃ ht₃
  have h₁₃ := h₁₂.trans h₃
  obtain ⟨rfl, h₄⟩ := take_sameCut (h₁₃.isPrefix hbegins) hs₄ ht₄
  exact ⟨rfl, h₁₃.trans h₄⟩

theorem Header.read_sameCut {s s' t t' : Source} {h h' : Header} (hbegins : t.rest <+: s.rest)
    (hs : Header.read s = .ok (h, s')) (ht : Header.read t = .ok (h', t')) :
    h = h' ∧ SameCut s s' t t' := by
  obtain ⟨⟨f, s₁⟩, hs₁, hs⟩ := bind_eq_ok_iff.mp hs
  obtain ⟨⟨g, t₁⟩, ht₁, ht⟩ := bind_eq_ok_iff.mp ht
  obtain ⟨rfl, hcut⟩ := Header.Fields.read_sameCut hbegins hs₁ ht₁
  obtain ⟨_, hf, hs⟩ := bind_eq_ok_iff.mp hs
  obtain ⟨_, hg, ht⟩ := bind_eq_ok_iff.mp ht
  cases hs
  cases ht
  rw [hf] at hg
  cases hg
  exact ⟨rfl, hcut⟩

/-! ### Blocks -/

variable {p q : Plan} {s s' t t' : Source}

theorem readRaw_eq_append {n : Nat} {h after : History} (hr : readRaw p n s h = .ok (after, s')) :
    ∃ front, s.rest = front ++ s'.rest ∧ front.length = n := by
  fun_induction readRaw p n s h with
  | case1 =>
    cases hr
    exact ⟨[], rfl, rfl⟩
  | case2 => cases hr
  | case3 => cases hr
  | case4 n s h _ piece mid hp _ _ h' _ ih =>
    -- a piece of the block, and then the rest of it
    have hsplit := takeInSight_eq_append n s
    have hle := length_takeInSight_le n s
    rw [hp] at hsplit hle
    obtain ⟨front, hmid, hlen⟩ := ih hr
    refine ⟨piece ++ front, ?_, ?_⟩
    · rw [hsplit, List.append_assoc, ← hmid]
    · rw [List.length_append]
      simp only at hle
      omega

theorem readBlock_eq_append {header : Block.Header} {h after : History}
    (hr : readBlock p header s h = .ok (after, s')) :
    ∃ front, s.rest = front ++ s'.rest ∧ front.length = header.stored := by
  unfold readBlock at hr
  split at hr
  · cases hr
  · rename_i stored s₁ hs
    simp only at hr
    split at hr
    · cases hr
    · split at hr
      · cases hr
      · cases hr
        exact ⟨stored, eq_append_of_take hs⟩

/-- **One block.** What follows the header of a block is as long as the header says, in whatever way the
block is stored, and also if it is passed over. -/
theorem readContents_eq_append {header : Block.Header} {h after : History}
    (hr : readContents p header s h = .ok (after, s')) :
    ∃ front, s.rest = front ++ s'.rest ∧ front.length = header.stored := by
  unfold readContents at hr
  split at hr
  · cases hr
  · split at hr
    · rename_i hskips
      cases hr
      simp only [Plan.skips, Bool.and_eq_true, decide_eq_true_eq] at hskips
      exact ⟨[], rfl, hskips.1.symm⟩
    · split at hr
      · rename_i hraw
        obtain ⟨front, hfront, hlen⟩ := readRaw_eq_append hr
        refine ⟨front, hfront, ?_⟩
        simp [Block.Header.stored, hraw, hlen]
      · exact readBlock_eq_append hr

/-- What the decoding of blocks begins with: a header and what follows it. -/
theorem blocks_eq_ok {h after : History} (hb : blocks p s h = .ok (after, s')) :
    ∃ raw behind header mid rest, s.take Block.Header.length = .ok (raw, behind) ∧
      Block.Header.ofBytes raw = .ok header ∧ readContents p header behind h = .ok (mid, rest) ∧
      (if header.last then s' = rest else blocks p rest mid = .ok (after, s')) := by
  rw [blocks.eq_def] at hb
  split at hb
  · cases hb
  rename_i raw behind htake
  split at hb
  · cases hb
  rename_i header hheader
  split at hb
  · cases hb
  rename_i mid rest hread
  refine ⟨raw, behind, header, mid, rest, htake, hheader, hread, ?_⟩
  cases hlast : header.last with
  | false => simpa [hlast] using hb
  | true =>
    rw [hlast] at hb
    simp only [Bool.not_true, Bool.false_eq_true, if_false] at hb
    split at hb
    · cases hb
    · cases hb
      rfl

/-- **The blocks of a frame.** However they are decoded, the same bytes are taken. -/
theorem blocks_sameCut {h h' after after' : History} (hbegins : t.rest <+: s.rest)
    (hs : blocks p s h = .ok (after, s')) (ht : blocks q t h' = .ok (after', t')) :
    SameCut s s' t t' := by
  -- on the length of the first source; every block has a header
  induction hk : s.rest.length using Nat.strongRecOn generalizing s t h h' with
  | ind k ih =>
    obtain ⟨raw, behind, header, mid, rest, htake, hheader, hread, hnext⟩ := blocks_eq_ok hs
    obtain ⟨raw', behind', header', mid', rest', htake', hheader', hread', hnext'⟩ := blocks_eq_ok ht
    obtain ⟨rfl, hcut⟩ := take_sameCut hbegins htake htake'
    rw [hheader] at hheader'
    cases hheader'
    obtain ⟨front, hfront, hlen⟩ := readContents_eq_append hread
    obtain ⟨front', hfront', hlen'⟩ := readContents_eq_append hread'
    have hblock : SameCut s rest t rest' := hcut.trans
      (sameCut_of_length (hcut.isPrefix hbegins) hfront hfront' (by omega)).2
    cases hlast : header.last with
    | true =>
      rw [hlast, if_pos rfl] at hnext hnext'
      rw [hnext, hnext']
      exact hblock
    | false =>
      rw [hlast, if_neg Bool.false_ne_true] at hnext hnext'
      have hshort : rest.rest.length < k := by
        have h1 := Source.take_length htake
        have h2 := readContents_length hread
        simp only [Block.Header.length] at h1
        omega
      exact hblock.trans (ih _ hshort (hblock.isPrefix hbegins) hnext hnext' rfl)

theorem readChecksum_sameCut {header : Header} {content content' : Bytes} (hbegins : t.rest <+: s.rest)
    (hs : readChecksum header content s = .ok s') (ht : readChecksum header content' t = .ok t') :
    SameCut s s' t t' := by
  unfold readChecksum at hs ht
  split at hs
  · rename_i hsum
    rw [if_pos hsum] at ht
    split at hs
    · cases hs
    rename_i htake
    split at ht
    · cases ht
    rename_i htake'
    have hcut := (take_sameCut hbegins htake htake').2
    split at hs
    · cases hs
      split at ht
      · cases ht
        exact hcut
      · cases ht
    · cases hs
  · rename_i hsum
    rw [if_neg hsum] at ht
    cases hs
    cases ht
    exact SameCut.refl s t

/-! ### Frames of every kind -/

theorem decodeContents_sameCut {b b' c c' : Buffers} {front front' : Source} {content content' : Bytes}
    (hbegins : t.rest <+: s.rest) (hs : decodeContents b front s = .ok (content, b', s'))
    (ht : decodeContents c front' t = .ok (content', c', t')) : SameCut s s' t t' := by
  obtain ⟨⟨header, s₁⟩, hs₁, hs⟩ := bind_eq_ok_iff.mp hs
  obtain ⟨⟨p, _⟩, hp, hs⟩ := bind_eq_ok_iff.mp hs
  obtain ⟨⟨_, s₂⟩, hs₂, hs⟩ := bind_eq_ok_iff.mp hs
  obtain ⟨s₃, hs₃, hs⟩ := bind_eq_ok_iff.mp hs
  obtain ⟨⟨_, t₁⟩, ht₁, ht⟩ := bind_eq_ok_iff.mp ht
  obtain ⟨⟨q, _⟩, hq, ht⟩ := bind_eq_ok_iff.mp ht
  obtain ⟨⟨_, t₂⟩, ht₂, ht⟩ := bind_eq_ok_iff.mp ht
  obtain ⟨t₃, ht₃, ht⟩ := bind_eq_ok_iff.mp ht
  cases hs
  cases ht
  obtain ⟨rfl, hheader⟩ := Header.read_sameCut hbegins hs₁ ht₁
  have hblocks := hheader.trans (blocks_sameCut (hheader.isPrefix hbegins) hs₂ ht₂)
  exact hblocks.trans (readChecksum_sameCut (hblocks.isPrefix hbegins) hs₃ ht₃)

theorem skip_sameCut {b b' c c' : Buffers} {content content' : Bytes} (hbegins : t.rest <+: s.rest)
    (hs : skip b s = .ok (content, b', s')) (ht : skip c t = .ok (content', c', t')) :
    SameCut s s' t t' := by
  obtain ⟨⟨size, s₁⟩, hs₁, hs⟩ := bind_eq_ok_iff.mp hs
  obtain ⟨⟨_, s₂⟩, hs₂, hs⟩ := bind_eq_ok_iff.mp hs
  obtain ⟨⟨_, t₁⟩, ht₁, ht⟩ := bind_eq_ok_iff.mp ht
  obtain ⟨⟨_, t₂⟩, ht₂, ht⟩ := bind_eq_ok_iff.mp ht
  cases hs
  cases ht
  obtain ⟨rfl, hsize⟩ := take_sameCut hbegins hs₁ ht₁
  exact hsize.trans (take_sameCut (hsize.isPrefix hbegins) hs₂ ht₂).2

end Frame

/-! ### Frames of earlier editions -/

namespace Edition

variable {e : Edition} {s s' t t' : Source}

/-- What a header of the fourth or fifth edition takes. -/
theorem take_of_readExponent {h : Header} (hr : readExponent s = .ok (h, s')) :
    ∃ flags, s.take 1 = .ok (flags, s') := by
  obtain ⟨⟨flags, mid⟩, htake, hr⟩ := bind_eq_ok_iff.mp hr
  simp only at hr
  split at hr
  · cases hr
  · cases hr
    exact ⟨flags, htake⟩

/-- What a header of the sixth edition takes. -/
theorem take_of_readSized {h : Header} (hr : readSized s = .ok (h, s')) :
    ∃ flags mid size, s.take 1 = .ok (flags, mid) ∧
      mid.take (if Bytes.toNatLE flags / 64 = 3 then 8 else Bytes.toNatLE flags / 64) =
        .ok (size, s') := by
  obtain ⟨⟨flags, mid⟩, hflags, hr⟩ := bind_eq_ok_iff.mp hr
  obtain ⟨⟨size, behind⟩, hsize, hr⟩ := bind_eq_ok_iff.mp hr
  simp only at hr
  split at hr
  · cases hr
  · cases hr
    exact ⟨flags, mid, size, hflags, hsize⟩

theorem readHeader_sameCut {h h' : Header} (hbegins : t.rest <+: s.rest)
    (hs : e.readHeader s = .ok (h, s')) (ht : e.readHeader t = .ok (h', t')) : SameCut s s' t t' := by
  cases e with
  | fourth | fifth =>
    obtain ⟨_, hs⟩ := take_of_readExponent hs
    obtain ⟨_, ht⟩ := take_of_readExponent ht
    exact (take_sameCut hbegins hs ht).2
  | sixth =>
    obtain ⟨flags, s₁, _, hs₁, hs₂⟩ := take_of_readSized hs
    obtain ⟨_, t₁, _, ht₁, ht₂⟩ := take_of_readSized ht
    obtain ⟨rfl, hcut⟩ := take_sameCut hbegins hs₁ ht₁
    exact hcut.trans (take_sameCut (hcut.isPrefix hbegins) hs₂ ht₂).2
  | seventh =>
    obtain ⟨⟨f, s₁⟩, hs₁, hs⟩ := bind_eq_ok_iff.mp hs
    obtain ⟨⟨g, t₁⟩, ht₁, ht⟩ := bind_eq_ok_iff.mp ht
    obtain ⟨_, -, hs⟩ := bind_eq_ok_iff.mp hs
    obtain ⟨_, -, ht⟩ := bind_eq_ok_iff.mp ht
    cases hs
    cases ht
    exact (Frame.Header.Fields.read_sameCut hbegins hs₁ ht₁).2

/-- What the decoding of blocks begins with: a header, behind which the frame ends or a block follows. -/
theorem blocks_eq_ok {b : Buffers} {header : Header} {content out : Bytes} {used : Nat}
    (h : blocks b header s content used = .ok (out, s')) :
    ∃ raw behind, s.take 3 = .ok (raw, behind) ∧
      (if (BlockHeader.ofBytes raw).stored = 0 then s' = behind
        else ∃ stored rest content used,
          behind.take (BlockHeader.ofBytes raw).stored = .ok (stored, rest) ∧
          blocks b header rest content used = .ok (out, s')) := by
  rw [blocks.eq_def] at h
  split at h
  · cases h
  rename_i raw behind hhead
  refine ⟨raw, behind, take_of_takeBuffered hhead, ?_⟩
  simp only at h
  split at h
  · cases h
  split at h
  · rename_i hend
    cases h
    rw [if_pos hend]
  · rename_i hend
    rw [if_neg hend]
    split at h
    · cases h
    rename_i stored rest hbody
    split at h
    · cases h
    exact ⟨stored, rest, _, _, take_of_takeBuffered hbody, h⟩

theorem blocks_sameCut {b b' : Buffers} {header header' : Header} {content content' out out' : Bytes}
    {used used' : Nat} (hbegins : t.rest <+: s.rest)
    (hs : blocks b header s content used = .ok (out, s'))
    (ht : blocks b' header' t content' used' = .ok (out', t')) : SameCut s s' t t' := by
  -- on the length of the first source; every block has a header
  induction hk : s.rest.length using Nat.strongRecOn generalizing s t content content' used used' with
  | ind k ih =>
    obtain ⟨raw, behind, hhead, hnext⟩ := blocks_eq_ok hs
    obtain ⟨raw', behind', hhead', hnext'⟩ := blocks_eq_ok ht
    obtain ⟨rfl, hcut⟩ := take_sameCut hbegins hhead hhead'
    by_cases hend : (BlockHeader.ofBytes raw).stored = 0
    · rw [if_pos hend] at hnext hnext'
      rw [hnext, hnext']
      exact hcut
    · rw [if_neg hend] at hnext hnext'
      obtain ⟨stored, rest, content₁, used₁, hbody, hs⟩ := hnext
      obtain ⟨stored', rest', content₂, used₂, hbody', ht⟩ := hnext'
      have hblock := hcut.trans (take_sameCut (hcut.isPrefix hbegins) hbody hbody').2
      have hshort : rest.rest.length < k := by
        have h1 := Source.take_length hhead
        have h2 := Source.take_length hbody
        omega
      exact hblock.trans (ih _ hshort (hblock.isPrefix hbegins) hs ht rfl)

theorem decode_sameCut {b b' : Option Buffers} {c c' : Buffers} {content content' : Bytes}
    (hbegins : t.rest <+: s.rest) (hs : e.decode b s = .ok (content, c, s'))
    (ht : e.decode b' t = .ok (content', c', t')) : SameCut s s' t t' := by
  obtain ⟨⟨header, s₁⟩, hs₁, hs⟩ := bind_eq_ok_iff.mp hs
  obtain ⟨⟨_, s₂⟩, hs₂, hs⟩ := bind_eq_ok_iff.mp hs
  obtain ⟨⟨header', t₁⟩, ht₁, ht⟩ := bind_eq_ok_iff.mp ht
  obtain ⟨⟨_, t₂⟩, ht₂, ht⟩ := bind_eq_ok_iff.mp ht
  cases hs
  cases ht
  have hheader := readHeader_sameCut hbegins hs₁ ht₁
  exact hheader.trans (blocks_sameCut (hheader.isPrefix hbegins) hs₂ ht₂)

end Edition

/-! ### Frames -/

namespace Frame

variable {s s' t t' : Source}

/-- What a frame that can be decoded begins with. -/
inductive Mark : Start → Bytes → Prop
  | contents : Mark .contents magic
  | skippable (x : UInt8) (h : x &&& 0xf0 = 0x50) : Mark .skippable (x :: skippableMagicTail)
  | earlier (front : Bytes) (e : Edition) (h : (front, e) ∈ editionMagics) : Mark (.earlier e) front

namespace Mark

variable {kind kind' : Start} {front : Bytes}

theorem length_eq (h : Mark kind front) : front.length = 4 := by
  cases h with
  | contents | skippable => rfl
  | earlier front e h =>
    have hall : ∀ x ∈ editionMagics, x.1.length = 4 := by decide
    exact hall _ h

/-- The first byte of a skippable frame begins no other one. -/
theorem head_ne {e : Edition} {x : UInt8} {tail : Bytes} (hx : x &&& 0xf0 = 0x50) :
    x :: tail ≠ magic ∧ (x :: tail, e) ∉ editionMagics := by
  have hmagic : (magic.head? : Option UInt8).all (· &&& 0xf0 ≠ 0x50) := by decide
  have hall : ∀ y ∈ editionMagics, (y.1.head? : Option UInt8).all (· &&& 0xf0 ≠ 0x50) := by decide
  constructor
  · intro h
    rw [← h] at hmagic
    simp [hx] at hmagic
  · intro h
    have := hall _ h
    simp [hx] at this

/-- The first bytes say what a frame is. -/
theorem unique (h : Mark kind front) (h' : Mark kind' front) : kind = kind' := by
  have hmagic : ∀ e, (magic, e) ∉ editionMagics := by
    intro e
    cases e <;> decide
  have hedition : ∀ x ∈ editionMagics, ∀ y ∈ editionMagics, x.1 = y.1 → x.2 = y.2 := by decide
  generalize hfront : front = front' at h'
  cases h with
  | contents =>
    cases h' with
    | contents => rfl
    | skippable x hx => exact absurd hfront.symm (head_ne (e := .fourth) hx).1
    | earlier _ e h => exact absurd (hfront ▸ h) (hmagic e)
  | skippable x hx =>
    cases h' with
    | contents => exact absurd hfront (head_ne (e := .fourth) hx).1
    | skippable => rfl
    | earlier _ e h => exact absurd (hfront ▸ h) (head_ne hx).2
  | earlier _ e h =>
    cases h' with
    | contents => exact absurd (hfront ▸ h) (hmagic e)
    | skippable x hx => exact absurd (hfront ▸ h) (head_ne hx).2
    | earlier _ e' h' => exact congrArg Start.earlier (hedition _ h _ h' hfront)

end Mark

theorem startEarlier_cases (front : Bytes) :
    Mark (startEarlier front) front ∨ startEarlier front = .outdated ∨
      startEarlier front = .unknown := by
  unfold startEarlier
  split
  · exact .inr (.inl rfl)
  · split
    · rename_i found e hfound
      have hfront : found = front := by simpa using List.find?_some hfound
      exact .inl (.earlier front e (hfront ▸ List.mem_of_find?_eq_some hfound))
    · exact .inr (.inr rfl)

/-- Either a frame that can be decoded begins, or there is a reason why not. -/
theorem start_cases (s : Source) :
    Mark (start s) (s.rest.take 4) ∨ start s = .outdated ∨ start s = .short ∨ start s = .unknown := by
  generalize hfront : s.rest.take 4 = front
  unfold start
  rw [hfront]
  simp only
  split
  · rename_i hmagic
    exact .inl (hmagic ▸ .contents)
  split
  · exact .inr (.inr (.inl rfl))
  split
  · rename_i x tail _ _
    split
    · rename_i hskip
      split
      · rename_i hlen
        have htail : tail = skippableMagicTail :=
          (List.isPrefixOf_iff_prefix.mp hskip.2).eq_of_length hlen
        exact .inl (htail ▸ .skippable x hskip.1)
      · exact .inr (.inr (.inl rfl))
    · split
      · rcases startEarlier_cases (x :: tail) with h | h | h
        · exact .inl h
        · exact .inr (.inl h)
        · exact .inr (.inr (.inr h))
      · exact .inr (.inr (.inr rfl))
  · exact .inr (.inr (.inl rfl))

/-- A frame can only be decoded where one begins. -/
theorem mark_of_decode {b b' : Buffers} {content : Bytes} (h : decode b s = .ok (content, b', s')) :
    Mark (start s) (s.rest.take 4) := by
  rcases start_cases s with hmark | hstart | hstart | hstart
  · exact hmark
  all_goals
    simp only [decode, hstart] at h
    cases h

/-- **One frame.** Of two sources of which one ends earlier, the same frame is taken. -/
theorem decode_sameCut {b b' c c' : Buffers} {content content' : Bytes} (hbegins : t.rest <+: s.rest)
    (hs : decode b s = .ok (content, b', s')) (ht : decode c t = .ok (content', c', t')) :
    SameCut s s' t t' := by
  have hmark := mark_of_decode hs
  have hmark' := mark_of_decode ht
  -- the first four bytes are the same ones, and say in either source what the frame is
  have hfront : s.rest = s.rest.take 4 ++ (behindMagic s).rest := (List.take_append_drop 4 _).symm
  have hfront' : t.rest = t.rest.take 4 ++ (behindMagic t).rest := (List.take_append_drop 4 _).symm
  obtain ⟨hsame, hcut⟩ := sameCut_of_length hbegins hfront hfront'
    (hmark.length_eq.trans hmark'.length_eq.symm)
  have hkind := hmark.unique (hsame ▸ hmark')
  have hbehind := hcut.isPrefix hbegins
  simp only [decode, ← hkind] at hs ht
  cases hstart : start s with
  | contents =>
    rw [hstart] at hs ht
    exact hcut.trans (decodeContents_sameCut hbehind hs ht)
  | skippable =>
    rw [hstart] at hs ht
    exact hcut.trans (skip_sameCut hbehind hs ht)
  | earlier e =>
    rw [hstart] at hs ht
    obtain ⟨⟨_, _, s₁⟩, hs₁, hs⟩ := bind_eq_ok_iff.mp hs
    obtain ⟨⟨_, _, t₁⟩, ht₁, ht⟩ := bind_eq_ok_iff.mp ht
    cases hs
    cases ht
    exact hcut.trans (Edition.decode_sameCut hbehind hs₁ ht₁)
  | outdated | short | unknown =>
    rw [hstart] at hs
    cases hs

end Frame

/-! ### Prefixes of frames -/

/-- The bytes are one frame, of whatever compressor. -/
def IsFrame (b : Bytes) : Prop :=
  ∃ content buffers after, Frame.decode {} { rest := b } = .ok (content, buffers, after) ∧ after.rest = []

theorem isFrame_compress (level : Int) (content : Bytes) : IsFrame (compress level content) := by
  obtain ⟨buffers, taken, h⟩ := Frame.decode_compress level content
  exact ⟨content, buffers, ⟨[], taken⟩, h, rfl⟩

/-- **Truncated frames.** A strict prefix of a frame cannot be decompressed. -/
theorem exists_fault_of_take {b : Bytes} {n : Nat} (h : IsFrame b) (hn : n < b.length) :
    ∃ fault, decompress (b.take n) = .error fault := by
  obtain ⟨content, buffers, after, hframe, hafter⟩ := h
  cases hd : decompress (b.take n) with
  | error fault => exact ⟨fault, rfl⟩
  | ok out =>
    exfalso
    unfold decompress at hd
    split at hd
    · cases hd
    · rename_i hnonempty
      rw [decodeAll.eq_def, if_neg hnonempty] at hd
      split at hd
      · cases hd
      rename_i content' buffers' rest hfirst
      obtain ⟨front, hfront, htake⟩ := Frame.decode_sameCut (List.take_prefix n b) hframe hfirst
      -- the first frame of the prefix is as long as the whole
      rw [hafter, List.append_nil] at hfront
      simp only at hfront htake
      have := congrArg List.length htake
      rw [← hfront, List.length_append, List.length_take] at this
      omega

end SnapStore.Zstandard
