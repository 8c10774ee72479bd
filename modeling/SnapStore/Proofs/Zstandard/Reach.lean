import SnapStore.Proofs.Zstandard.Decoding

namespace SnapStore.Zstandard

/-!
# How far back a block can copy

A decoder lets a block copy from beyond the window, as far as the buffer goes.  How far that is depends on
the size of the buffer, and a buffer that was made for an earlier frame may be larger than this frame needs.
It is started again later then, but that can be at a worse moment: what a larger buffer holds is not always
more.

* `Fill` — how much of the contents a buffer holds, and `Fill.grow` what a block makes of that.
* `Frame.blocks_runs` — behind runs, the buffer holds what their sizes say.
* `decodeAll_remote` — a frame that copies from beyond its window is decoded with some buffers, and not with
  all larger ones.
-/

/-- How much a buffer holds, whatever it is. -/
structure Fill where
  /-- The size of the contents. -/
  size : Nat
  base : Nat
  reach : Nat
  deriving DecidableEq, Repr

namespace Fill

/-- What is held behind a block of `n` bytes, of a frame that declares no size. -/
def grow (size limit : Nat) (e : Fill) (n : Nat) : Fill :=
  let used := e.size + n - e.base
  if size < used + limit then ⟨e.size + n, e.size + n, used⟩ else ⟨e.size + n, e.base, e.reach⟩

/-- The number of bytes that can be copied from. -/
def held (e : Fill) : Nat := e.size - e.base + e.reach

end Fill

namespace Output

/-- How much of the contents is in the buffer. -/
def fill (o : Output) : Fill := ⟨o.content.size, o.base, o.reach⟩

theorem canReach_eq (o : Output) (distance : Nat) :
    o.canReach distance = (decide (0 < distance) && decide (distance ≤ o.fill.held)) := rfl

theorem fill_settle_append (o : Output) (bytes : Array UInt8) (size limit : Nat) :
    ((o.append bytes).settle size limit none).fill = o.fill.grow size limit bytes.size := by
  obtain ⟨content, base, reach⟩ := o
  simp only [append, settle, Option.all_none, Bool.true_and, decide_eq_true_eq, used, Array.size_append]
  by_cases hagain : size < content.size + bytes.size - base + limit
  · rw [if_pos hagain, fill, Array.size_append]
    exact (if_pos hagain).symm
  · rw [if_neg hagain, fill, Array.size_append]
    exact (if_neg hagain).symm

@[simp] theorem size_copy (o : Output) (distance n : Nat) :
    (o.copy distance n).content.size = o.content.size + n := by
  obtain ⟨content, base, reach⟩ := o
  simp only [copy, size_repeatFrom, Array.size_append, Array.size_map, Array.size_range]
  omega

theorem append_empty (o : Output) : o.append #[] = o := by
  obtain ⟨content, base, reach⟩ := o
  rw [append, Array.append_empty]

end Output

namespace Frame

variable {p : Plan} {h : History}

/-! ### Runs -/

/-- A run that is not the last block. -/
def run (x : UInt8) (size : Nat) : Bytes := Block.Header.toBytes ⟨false, .run, size⟩ ++ [x]

/-- What a run leaves for the blocks after it. -/
def afterRun (p : Plan) (x : UInt8) (size : Nat) (h : History) : History :=
  { h with output := (h.output.append (Array.replicate size x)).settle p.size p.header.blockLimit none }

theorem fill_afterRun (p : Plan) (x : UInt8) (size : Nat) (h : History) :
    (afterRun p x size h).output.fill = h.output.fill.grow p.size p.header.blockLimit size := by
  rw [afterRun, Output.fill_settle_append, Array.size_replicate]

theorem settle_run (hp : p.Streams) {size : Nat} (hpos : 0 < size) (x : UInt8) :
    settle p h.output.content.size { h with output := h.output.append (Array.replicate size x) } =
      afterRun p x size h := by
  have hgrown : (h.output.append (Array.replicate size x)).content.size ≠ h.output.content.size := by
    show (h.output.content ++ Array.replicate size x).size ≠ _
    rw [Array.size_append, Array.size_replicate]
    omega
  rw [settle_eq, if_neg hgrown, hp.undeclared, afterRun]

theorem hasRoom_afterRun (hp : p.Streams) (x : UInt8) (size : Nat) (hroom : HasRoom p h.output) :
    HasRoom p (afterRun p x size h).output := by
  have hstarted : (h.output.append (Array.replicate size x)).base ≤
      (h.output.append (Array.replicate size x)).content.size := by
    have := hroom.started
    show h.output.base ≤ (h.output.content ++ Array.replicate size x).size
    rw [Array.size_append]
    omega
  have hsettled := hasRoom_settle hp hstarted
  rw [hp.undeclared] at hsettled
  exact hsettled

/-- The decoder is behind the run, at the next block. -/
theorem blocks_run (hp : p.Streams) {size : Nat} (hpos : 0 < size) (hlen : size ≤ p.header.blockLimit)
    (x : UInt8) (rest : Bytes) (n : Nat) (hroom : HasRoom p h.output) :
    blocks p ⟨run x size ++ rest, n⟩ h = blocks p ⟨rest, n + (run x size).length⟩ (afterRun p x size h) := by
  have hhead := Source.take_append (Block.Header.toBytes ⟨false, .run, size⟩) ([x] ++ rest) n
  rw [Block.Header.length_toBytes] at hhead
  have hheader := Block.Header.ofBytes_toBytes (h := ⟨false, .run, size⟩)
    (Nat.lt_of_le_of_lt hlen (blockLimit_lt p.header))
  have hread := readContents_run_eq hp false hpos hlen x rest (n + Block.Header.length) hroom
  rw [settle_run hp hpos] at hread
  rw [run, List.append_assoc, blocks_of_parts hhead hheader hread, List.length_append,
    Block.Header.length_toBytes, ← Nat.add_assoc]
  rfl

/-- **What runs leave in the buffer** depends on nothing but their sizes. -/
theorem blocks_runs (hp : p.Streams) (x : UInt8) {sizes : List Nat}
    (hsizes : ∀ size ∈ sizes, 0 < size ∧ size ≤ p.header.blockLimit) (rest : Bytes) (n : Nat)
    (hroom : HasRoom p h.output) :
    ∃ output n', blocks p ⟨sizes.flatMap (run x) ++ rest, n⟩ h = blocks p ⟨rest, n'⟩ { h with output } ∧
      output.fill = sizes.foldl (Fill.grow p.size p.header.blockLimit) h.output.fill ∧
      HasRoom p output := by
  induction sizes generalizing n h with
  | nil => exact ⟨h.output, n, rfl, rfl, hroom⟩
  | cons size sizes ih =>
    obtain ⟨hpos, hlen⟩ := hsizes size List.mem_cons_self
    obtain ⟨output, n', hblocks, hfill, hroom'⟩ := ih
      (fun size hmem => hsizes size (List.mem_cons_of_mem _ hmem)) (n + (run x size).length)
      (hasRoom_afterRun hp x size hroom)
    refine ⟨output, n', ?_, ?_, hroom'⟩
    · rw [List.flatMap_cons, List.append_assoc, blocks_run hp hpos hlen x _ n hroom, hblocks]
      rfl
    · rw [hfill, fill_afterRun, List.foldl_cons]

end Frame

/-! ### A copy from far back -/

namespace Block

/-- A block without literals, whose one sequence copies three bytes from 400000 back. -/
def remote : Bytes := [0x00, 0x01, 0x54, 0x00, 0x12, 0x00, 0x83, 0x1a, 0x06]

/-- The codes of its three numbers, with one symbol each. -/
def remoteTables : Tables := ⟨.constant 0, .constant 18, .constant 0⟩

theorem read_literals_remote (room : Nat) :
    Literals.read ⟨131072, room, false⟩ none remote.toArray = .ok ⟨#[], .aside, none, 1⟩ := by
  rfl

theorem read_sequences_remote : Sequences.read none remote.toArray 1 = .ok ⟨1, some remoteTables, 6⟩ := by
  rfl

theorem next_remote : ∃ bits c, Backward.open? remote.toArray 6 9 = some bits ∧
    remoteTables.next true (remoteTables.enter {} bits) = (⟨0, 400000, 3⟩, c) ∧ c.bits.isDone = true := by
  exact ⟨_, _, rfl, rfl, rfl⟩

theorem execute_remote {room : Nat} (hroom : 131072 ≤ room) {c after : Cursor} (o : Output)
    (hnext : remoteTables.next true c = (⟨0, 400000, 3⟩, after)) (hdone : after.bits.isDone = true) :
    execute ⟨131072, room, false⟩ ⟨#[], .aside, none, 1⟩ remoteTables o.content.size 1 c 0 o =
      if o.canReach 400000 then .ok (o.copy 400000 3, after.recent) else .error .corrupted := by
  have hfits : ¬ room < 3 := by omega
  have hlost : Place.isLost .aside ⟨131072, room, false⟩ 0 0 0 0 = false := rfl
  have hnone : (#[] : Array UInt8).extract 0 0 = #[] := rfl
  have hfinish : finish ⟨131072, room, false⟩ ⟨#[], .aside, none, 1⟩ o.content.size 0 (o.copy 400000 3) =
      .ok (o.copy 400000 3) := by
    have hfits : ¬ room < o.content.size + 3 - o.content.size := by omega
    simp only [finish, Place.room, Output.size_copy, Array.size_empty, Nat.add_zero, if_neg hfits, hnone,
      Output.append_empty]
  rw [execute, show decide (0 = 0) = true from rfl, hnext]
  simp only [Place.room, Nat.sub_self, Nat.add_zero, Nat.zero_add, if_neg hfits, Array.size_empty,
    Nat.lt_irrefl,
    if_false, hlost, Bool.false_eq_true, hnone, Output.append_empty, execute, hdone, if_true,
      hfinish, Except.map]

/-- The copy is made if the buffer goes so far, whatever the window is. -/
theorem decompress_remote {room : Nat} (hroom : 131072 ≤ room) (o : Output) :
    ∃ after, after.output.content.size = o.content.size + 3 ∧
      decompress ⟨131072, room, false⟩ remote.toArray { output := o } =
        if o.canReach 400000 then .ok after else .error .corrupted := by
  obtain ⟨bits, c, hopen, hnext, hdone⟩ := next_remote
  refine ⟨⟨o.copy 400000 3, none, some remoteTables, c.recent⟩, Output.size_copy .., ?_⟩
  have hsize : remote.toArray.size = 9 := rfl
  have hsmall : ¬ 131072 < 9 := by decide
  have hpos : ¬ room = 0 := by omega
  simp only [decompress, hsize, if_neg hsmall, read_literals_remote, read_sequences_remote, bind,
    Except.bind, Nat.one_ne_zero, if_false, if_neg hpos, hopen, execute_remote hroom o hnext hdone]
  cases o.canReach 400000 <;> rfl

end Block

namespace Frame

variable {p : Plan}

/-- The block that copies from far back, as the last one. -/
def lastRemote : Bytes := Block.Header.toBytes ⟨true, .compressed, 9⟩ ++ Block.remote

theorem blocks_lastRemote (hp : p.Streams) (hlimit : p.header.blockLimit = 131072) {output : Output}
    (hroom : HasRoom p output) (rest : Bytes) (n : Nat) :
    ∃ after n', blocks p ⟨lastRemote ++ rest, n⟩ { output } =
      if output.canReach 400000 then .ok (after, ⟨rest, n'⟩) else .error .corrupted := by
  have hhead := Source.take_append (Block.Header.toBytes ⟨true, .compressed, 9⟩) (Block.remote ++ rest) n
  rw [Block.Header.length_toBytes] at hhead
  have hheader := Block.Header.ofBytes_toBytes (h := ⟨true, .compressed, 9⟩) (by decide)
  have hbody := Source.take_append Block.remote rest (n + Block.Header.length)
  have hspace : p.space output = ⟨131072, p.size - output.used, false⟩ := by
    rw [Plan.space, hlimit, hp.stepwise]
  have hfits : 131072 ≤ p.size - output.used := by
    have := hroom.room
    omega
  obtain ⟨after, hsize, hdecompress⟩ := Block.decompress_remote hfits output
  refine ⟨settle p output.content.size after, n + Block.Header.length + Block.remote.length, ?_⟩
  -- what is in front of the copy is checked in the same way in both cases
  have hgrown : ¬ 131072 < after.output.content.size - output.content.size := by omega
  have hread : readContents p ⟨true, .compressed, 9⟩ ⟨Block.remote ++ rest, n + Block.Header.length⟩
    { output } =
      if output.canReach 400000 then
        .ok (settle p output.content.size after, ⟨rest, n + Block.Header.length + Block.remote.length⟩)
      else .error .corrupted := by
    have hstored : Block.Header.stored ⟨true, .compressed, 9⟩ = Block.remote.length := rfl
    have hlarge : ¬ 131072 < Block.remote.length := by decide
    have hskips : p.skips ⟨true, .compressed, 9⟩ = false := rfl
    have hdecode : Block.decode (p.space output) ⟨true, .compressed, 9⟩ Block.remote { output } =
        if output.canReach 400000 then .ok after else .error .corrupted := by
      rw [hspace]
      exact hdecompress
    simp only [readContents, hstored, hlimit, hlarge, and_false, if_false, hskips, Bool.false_eq_true,
      reduceCtorEq, readBlock, hbody, hdecode]
    cases output.canReach 400000 with
    | false => rfl
    | true =>
      simp only [if_true, hgrown, and_false, if_false]
  cases hreach : output.canReach 400000 with
  | false =>
    rw [hreach] at hread
    rw [lastRemote, List.append_assoc]
    exact blocks_of_fault hhead hheader hread
  | true =>
    rw [hreach] at hread
    rw [lastRemote, List.append_assoc, blocks_of_parts hhead hheader hread, hp.undeclared]
    simp

/-- The sizes of some runs, of which the larger ones are as large as a block can be. -/
def stretches : List Nat := [131072, 131072, 100, 131072, 131072, 100, 131072, 65536]

/-- A frame with a window of 131072 bytes that copies from 400000 back in the end. -/
def remote : Bytes := magic ++ ([0x00, 0x38] ++ (stretches.flatMap (run 0x30) ++ lastRemote))

example : remote = [
    0x28, 0xb5, 0x2f, 0xfd, 0x00, 0x38, 0x02, 0x00, 0x10, 0x30, 0x02, 0x00, 0x10, 0x30, 0x22, 0x03,
    0x00, 0x30, 0x02, 0x00, 0x10, 0x30, 0x02, 0x00, 0x10, 0x30, 0x22, 0x03, 0x00, 0x30, 0x02, 0x00,
    0x10, 0x30, 0x02, 0x00, 0x08, 0x30, 0x4d, 0x00, 0x00, 0x00, 0x01, 0x54, 0x00, 0x12, 0x00, 0x83,
    0x1a, 0x06] := by
  decide

/-- What its header says. -/
def remoteHeader : Header :=
  { contentSize := none, window := 131072, checksum := false, dictionary := false }

theorem read_remoteHeader (rest : Bytes) (n : Nat) :
    Header.read ⟨[0x00, 0x38] ++ rest, n⟩ = .ok (remoteHeader, ⟨rest, n + 2⟩) := by
  rfl

theorem plan_remote (buffers : Buffers) (front s : Source) :
    plan buffers remoteHeader front s = .ok (⟨remoteHeader, (buffers.provide 131072 393280).output, false⟩,
      buffers.provide 131072 393280) := by
  rfl

/-- How far back its last block can copy from, with a buffer of some size. -/
def heldBehindStretches (size : Nat) : Nat := (stretches.foldl (Fill.grow size 131072) ⟨0, 0, 0⟩).held

theorem blocks_remote {size : Nat} (hsize : 131072 ≤ size) (n : Nat) :
    ∃ after n', blocks ⟨remoteHeader, size, false⟩ ⟨stretches.flatMap (run 0x30) ++ lastRemote, n⟩ {} =
      if 400000 ≤ heldBehindStretches size then .ok (after, ⟨[], n'⟩) else .error .corrupted := by
  have hp : Plan.Streams ⟨remoteHeader, size, false⟩ := ⟨rfl, rfl, hsize⟩
  have hstretches : ∀ size ∈ stretches, 0 < size ∧ size ≤ remoteHeader.blockLimit := by decide
  obtain ⟨output, n', hruns, hfill, hroom⟩ := blocks_runs hp 0x30 hstretches lastRemote n
    (h := {}) (hasRoom_empty hp)
  obtain ⟨after, n'', hlast⟩ := blocks_lastRemote hp rfl hroom [] n'
  rw [List.append_nil] at hlast
  have hheld : output.fill.held = heldBehindStretches size := by
    have hlimit : remoteHeader.blockLimit = 131072 := rfl
    rw [hfill, heldBehindStretches, ← hlimit]
    rfl
  have hreach : output.canReach 400000 = decide (400000 ≤ heldBehindStretches size) := by
    rw [Output.canReach_eq, hheld]
    exact Bool.true_and _
  refine ⟨after, n'', ?_⟩
  rw [hruns, hlast, hreach]
  simp only [decide_eq_true_eq]

theorem start_magic (rest : Bytes) (n : Nat) : start ⟨magic ++ rest, n⟩ = .contents := by
  rfl

theorem behindMagic_magic (rest : Bytes) (n : Nat) : behindMagic ⟨magic ++ rest, n⟩ = ⟨rest, n + 4⟩ := by
  rfl

/-- A frame with that header is decoded as its blocks are. -/
theorem decode_of_remoteHeader (buffers : Buffers) (rest : Bytes) (n : Nat) :
    decode buffers ⟨magic ++ ([0x00, 0x38] ++ rest), n⟩ =
      (blocks ⟨remoteHeader, (buffers.provide 131072 393280).output, false⟩ ⟨rest, n + 4 + 2⟩ {}).map
        fun r => (r.1.output.content.toList, buffers.provide 131072 393280, r.2) := by
  rw [decode, start_magic, behindMagic_magic]
  simp only [decodeContents, read_remoteHeader, plan_remote, bind, Except.bind]
  cases blocks ⟨remoteHeader, (buffers.provide 131072 393280).output, false⟩ ⟨rest, n + 4 + 2⟩ {} <;> rfl

/-- **A frame that is decoded or not**, by the size of the buffer that there is. -/
theorem decode_remote (buffers : Buffers) (taken : Nat) :
    ∃ content taken', decode buffers ⟨remote, taken⟩ =
      if 400000 ≤ heldBehindStretches (buffers.provide 131072 393280).output then
        .ok (content, buffers.provide 131072 393280, ⟨[], taken'⟩)
      else .error .corrupted := by
  have hsize : 131072 ≤ (buffers.provide 131072 393280).output :=
    Nat.le_trans (by decide) (le_output_provide buffers 131072 393280)
  obtain ⟨after, n, hblocks⟩ := blocks_remote hsize (taken + 4 + 2)
  refine ⟨after.output.content.toList, n, ?_⟩
  rw [remote, decode_of_remoteHeader, hblocks]
  split <;> rfl

end Frame

/-- What is decoded of it. -/
theorem decodeAll_remote (buffers : Buffers) (taken : Nat) :
    ∃ content, decodeAll buffers ⟨Frame.remote, taken⟩ =
      if 400000 ≤ Frame.heldBehindStretches (buffers.provide 131072 393280).output then .ok content
      else .error .corrupted := by
  obtain ⟨content, taken', hdecode⟩ := Frame.decode_remote buffers taken
  refine ⟨content, ?_⟩
  split
  · rename_i hheld
    rw [if_pos hheld] at hdecode
    rw [decodeAll_of_decode hdecode, decodeAll_nil]
    simp only [Except.map, List.append_nil]
  · rename_i hheld
    rw [if_neg hheld] at hdecode
    exact decodeAll_of_fault (List.cons_ne_nil _ _) hdecode

end SnapStore.Zstandard
