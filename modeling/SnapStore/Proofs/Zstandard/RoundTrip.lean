import SnapStore.Zstandard.Compress
import Mathlib.Data.List.Basic

namespace SnapStore.Zstandard

/-!
# Reading written frames back

A written frame declares no size, so that it is decoded block by block through the buffer, however
much of it is in sight.

* `Block.Header.ofBytes_toBytes` — the header of a block is read back.
* `Frame.HasRoom` — the buffer has room for one more block; every block keeps this.
* `Frame.blocks_writeBlocks` — the blocks of a frame are read back, whatever was produced before.
* `decompress_compress` — so is the whole frame.
-/

/-! ### Sources -/

namespace Source

theorem take_append (a b : Bytes) (n : Nat) :
    (⟨a ++ b, n⟩ : Source).take a.length = .ok (a, ⟨b, n + a.length⟩) := by
  simp only [take, Bytes.split?_append]

/-- What is in sight of a piece is the front of it, and not empty. -/
theorem takeInSight_append {a b : Bytes} (n : Nat) (h : a ≠ []) :
    ∃ front back, a = front ++ back ∧ front ≠ [] ∧
      (⟨a ++ b, n⟩ : Source).takeInSight a.length = (front, ⟨back ++ b, n + front.length⟩) := by
  have hsight := (⟨a ++ b, n⟩ : Source).sight_pos
  have hlen := List.length_pos_iff.mpr h
  generalize hk : min a.length (⟨a ++ b, n⟩ : Source).sight = k
  have hle : k ≤ a.length := by omega
  refine ⟨a.take k, a.drop k, (List.take_append_drop k a).symm, ?_, ?_⟩
  · rw [ne_eq, List.take_eq_nil_iff]
    rintro (h0 | h0)
    · omega
    · exact h h0
  · simp only [takeInSight, hk, List.splitAt_eq, List.take_append_of_le_length hle,
      List.drop_append_of_le_length hle, List.length_take, Nat.min_eq_left hle]

end Source

/-! ### Block headers -/

namespace Block.Header

/-- The kind of a block by its number. -/
def kind? : Nat → Option BlockKind
  | 0 => some .raw
  | 1 => some .run
  | 2 => some .compressed
  | _ => none

/-- The fields of a header are the digits of one number: one bit says whether the block is the last,
two bits are its kind. -/
private theorem ofBytes_ofNatLE {size : Nat} {kind : BlockKind} (hsize : size < 2097152)
    (last : Nat) (hlast : last < 2) (k : Nat) (hk : kind? k = some kind) :
    ofBytes (Bytes.ofNatLE Header.length (last + 2 * k + 8 * size)) =
      .ok ⟨last = 1, kind, size⟩ := by
  -- one bit says whether the block is the last, two bits say its kind, and the others its size
  have hk4 : k < 4 := by
    rcases k with _ | _ | _ | k <;> first | omega | cases hk
  have hbytes : Bytes.toNatLE (Bytes.ofNatLE Header.length (last + 2 * k + 8 * size)) =
      last + 2 * k + 8 * size := by
    apply Bytes.toNatLE_ofNatLE
    show _ < 16777216
    omega
  have h1 : (last + 2 * k + 8 * size) % 2 = last := by omega
  have h2 : (last + 2 * k + 8 * size) / 2 % 4 = k := by omega
  have h3 : (last + 2 * k + 8 * size) / 8 = size := by omega
  simp only [ofBytes, hbytes, h1, h2, h3]
  rcases k with _ | _ | _ | k <;> cases hk <;> rfl

theorem ofBytes_toBytes {h : Header} (hsize : h.size < 2097152) : ofBytes h.toBytes = .ok h := by
  obtain ⟨last, kind, size⟩ := h
  cases last <;> cases kind
  · exact ofBytes_ofNatLE hsize 0 (by decide) 0 rfl
  · exact ofBytes_ofNatLE hsize 0 (by decide) 1 rfl
  · exact ofBytes_ofNatLE hsize 0 (by decide) 2 rfl
  · exact ofBytes_ofNatLE hsize 1 (by decide) 0 rfl
  · exact ofBytes_ofNatLE hsize 1 (by decide) 1 rfl
  · exact ofBytes_ofNatLE hsize 1 (by decide) 2 rfl

@[simp] theorem length_toBytes (h : Header) : h.toBytes.length = Header.length :=
  Bytes.length_ofNatLE _ _

end Block.Header

namespace Frame

/-! ### The buffer -/

/-- A frame that declares no size and is decoded block by block, through a buffer that a block fits
into. -/
structure Plan.Streams (p : Plan) : Prop where
  undeclared : p.header.contentSize = none
  stepwise : p.atOnce = false
  fits : p.header.blockLimit ≤ p.size

/-- The buffer has room for one more block behind what it holds. -/
structure HasRoom (p : Plan) (o : Output) : Prop where
  started : o.base ≤ o.content.size
  room : o.used + p.header.blockLimit ≤ p.size

variable {p : Plan}

theorem hasRoom_empty (hp : p.Streams) : HasRoom p {} := by
  refine ⟨Nat.le_refl 0, ?_⟩
  have := hp.fits
  simpa [Output.used] using this

/-- Settling makes room again, whatever is in the buffer. -/
theorem hasRoom_settle (hp : p.Streams) {o : Output} (h : o.base ≤ o.content.size) :
    HasRoom p (o.settle p.size p.header.blockLimit p.header.contentSize) := by
  have hfits := hp.fits
  rw [hp.undeclared]
  by_cases hroom : p.size < o.used + p.header.blockLimit
  · -- the buffer starts again at the end of the contents
    have hs : o.settle p.size p.header.blockLimit none =
        { o with base := o.content.size, reach := o.used } := by
      simp [Output.settle, hroom]
    rw [hs]
    refine ⟨Nat.le_refl _, ?_⟩
    simpa [Output.used] using hfits
  · have hs : o.settle p.size p.header.blockLimit none = o := by
      simp [Output.settle, hroom]
    rw [hs]
    exact ⟨h, by omega⟩

@[simp] theorem content_settle (o : Output) (size limit : Nat) (contentSize : Option Nat) :
    (o.settle size limit contentSize).content = o.content := by
  rw [Output.settle]
  split <;> rfl

theorem append_of_le {space : Space} {bytes : Array UInt8} (hlen : bytes.size ≤ space.room)
    (h : History) :
    Block.append space bytes h = .ok { h with output := h.output.append bytes } := by
  have hroom : ¬ space.room < bytes.size := by omega
  simp only [Block.append, if_neg hroom]

theorem after_of_append {space : Space} {bytes : Array UInt8} {h after : History}
    (happend : Block.append space bytes h = .ok after) :
    after = { h with output := h.output.append bytes } := by
  obtain ⟨output, code, tables, recent⟩ := h
  simp only [Block.append] at happend
  split at happend
  · cases happend
  · exact (Except.ok.inj happend).symm

/-- Settling changes where the buffer is in the contents, if anything has been put into it, and nothing
else. -/
theorem settle_eq (p : Plan) (start : Nat) (h : History) :
    settle p start h =
      { h with output := if h.output.content.size = start then h.output
          else h.output.settle p.size p.header.blockLimit p.header.contentSize } := by
  rw [settle]
  split <;> rfl

/-- **One block.** Bytes that are no more than a block fit behind the contents, and then there is room
for the next block. -/
theorem append_settle (hp : p.Streams) {h : History} (hroom : HasRoom p h.output)
    (bytes : Array UInt8) (hlen : bytes.size ≤ p.header.blockLimit) :
    ∃ after, Block.append (p.space h.output) bytes h = .ok after ∧
      after.output.content = h.output.content ++ bytes ∧
      (settle p h.output.content.size after).output.content = h.output.content ++ bytes ∧
      HasRoom p (settle p h.output.content.size after).output := by
  have hstarted := hroom.started
  have hfits : bytes.size ≤ (p.space h.output).room := by
    have := hroom.room
    show bytes.size ≤ p.size - h.output.used
    omega
  refine ⟨_, append_of_le hfits h, rfl, ?_, ?_⟩
  · -- settling does not touch the contents
    rw [settle_eq]
    show (if _ then _ else _ : Output).content = _
    split
    · rfl
    · rw [content_settle]
      rfl
  · rw [settle_eq]
    show HasRoom p (if (h.output.content ++ bytes).size = h.output.content.size then _ else _)
    by_cases hb : (h.output.content ++ bytes).size = h.output.content.size
    · -- nothing was appended
      have hb : bytes = #[] := by
        apply Array.size_eq_zero_iff.mp
        rw [Array.size_append] at hb
        omega
      subst hb
      rw [if_pos (by simp)]
      simpa [Output.append] using hroom
    · rw [if_neg hb]
      apply hasRoom_settle hp
      show h.output.base ≤ (h.output.content ++ bytes).size
      rw [Array.size_append]
      omega

/-! ### Blocks -/

/-- A block that is stored as it is gets read back, however much of it is in sight at a time. -/
theorem readRaw_append (hp : p.Streams) {piece : Bytes} (hlen : piece.length ≤ p.header.blockLimit)
    (rest : Bytes) (n : Nat) {h : History} (hroom : HasRoom p h.output) :
    ∃ after, readRaw p piece.length ⟨piece ++ rest, n⟩ h =
        .ok (after, ⟨rest, n + piece.length⟩) ∧
      after.output.content = h.output.content ++ piece.toArray ∧ HasRoom p after.output := by
  induction hk : piece.length using Nat.strongRecOn generalizing piece n h with
  | ind k ih =>
    subst hk
    by_cases hne : piece = []
    · -- an empty piece ends the loop
      subst hne
      refine ⟨h, ?_, by simp, hroom⟩
      rw [readRaw, if_pos List.length_nil]
      rfl
    · obtain ⟨front, back, rfl, hfront, hsight⟩ := Source.takeInSight_append (b := rest) n hne
      have hpos := List.length_pos_iff.mpr hfront
      rw [List.length_append] at hlen
      obtain ⟨mid, happend, -, hcontent, hmid⟩ :=
        append_settle hp hroom front.toArray (by simp only [List.size_toArray]; omega)
      -- what is left of the piece is read by the same loop
      obtain ⟨after, hread, hafter, hlast⟩ :=
        ih back.length (by rw [List.length_append]; omega) (by omega) (n + front.length) hmid rfl
      refine ⟨after, ?_, ?_, hlast⟩
      · have hpiece : (front ++ back).length ≠ 0 := by
          rw [List.length_append]
          omega
        have hback : (front ++ back).length - front.length = back.length := by
          rw [List.length_append]
          omega
        rw [readRaw, if_neg hpiece]
        simp only [hsight, dif_neg (Nat.ne_of_gt hpos), happend, hback, hread]
        rw [List.length_append, Nat.add_assoc]
      · rw [hafter, hcontent, Array.append_assoc, List.append_toArray front back]

theorem readContents_raw (hp : p.Streams) (last : Bool) {piece : Bytes}
    (hlen : piece.length ≤ p.header.blockLimit) (rest : Bytes) (n : Nat) {h : History}
    (hroom : HasRoom p h.output) :
    ∃ after, readContents p ⟨last, .raw, piece.length⟩ ⟨piece ++ rest, n⟩ h =
        .ok (after, ⟨rest, n + piece.length⟩) ∧
      after.output.content = h.output.content ++ piece.toArray ∧ HasRoom p after.output := by
  have hlimit : ¬ (! p.atOnce ∧ p.header.blockLimit < piece.length) := by
    rintro ⟨-, hlt⟩
    omega
  by_cases hne : piece = []
  · -- an empty block is passed over
    subst hne
    refine ⟨h, ?_, by simp, hroom⟩
    simp [readContents, Plan.skips, Block.Header.stored, hp.stepwise]
  · obtain ⟨after, hread, hafter⟩ := readRaw_append hp hlen rest n hroom
    refine ⟨after, ?_, hafter⟩
    have hpos := List.length_pos_iff.mpr hne
    have hskips : p.skips ⟨last, .raw, piece.length⟩ = false := by
      simp [Plan.skips, Block.Header.stored, hne]
    simp only [readContents, Block.Header.stored, reduceCtorEq, if_false, if_neg hlimit, hskips,
      if_true, hread, Bool.false_eq_true]

/-- What a run leaves for the blocks after it. -/
theorem readContents_run_eq (hp : p.Streams) (last : Bool) {size : Nat} (hpos : 0 < size)
    (hlen : size ≤ p.header.blockLimit) (x : UInt8) (rest : Bytes) (n : Nat) {h : History}
    (hroom : HasRoom p h.output) :
    readContents p ⟨last, .run, size⟩ ⟨[x] ++ rest, n⟩ h = .ok (settle p h.output.content.size
      { h with output := h.output.append (Array.replicate size x) }, ⟨rest, n + 1⟩) := by
  obtain ⟨mid, happend, hmid, -⟩ :=
    append_settle hp hroom (Array.replicate size x) (by rw [Array.size_replicate]; exact hlen)
  have hlimit : ¬ (! p.atOnce ∧ p.header.blockLimit < 1) := by
    rintro ⟨-, hlt⟩
    omega
  -- the block is no longer decoded than it was written
  have hgrown : ¬ (! p.atOnce ∧ p.header.blockLimit < mid.output.content.size - h.output.content.size) := by
    rintro ⟨-, hlt⟩
    rw [hmid, Array.size_append, Array.size_replicate] at hlt
    omega
  have htake := Source.take_append [x] rest n
  rw [List.length_singleton] at htake
  simp only [readContents, Block.Header.stored, if_true, if_neg hlimit, Plan.skips, Nat.one_ne_zero,
    decide_false, Bool.false_and, Bool.false_eq_true, if_false, reduceCtorEq, readBlock, htake,
    Block.decode, List.headD_cons, happend, if_neg hgrown]
  rw [after_of_append happend]

theorem readContents_run (hp : p.Streams) (last : Bool) {size : Nat} (hpos : 0 < size)
    (hlen : size ≤ p.header.blockLimit) (x : UInt8) (rest : Bytes) (n : Nat) {h : History}
    (hroom : HasRoom p h.output) :
    ∃ after, readContents p ⟨last, .run, size⟩ ⟨[x] ++ rest, n⟩ h = .ok (after, ⟨rest, n + 1⟩) ∧
      after.output.content = h.output.content ++ Array.replicate size x ∧
      HasRoom p after.output := by
  obtain ⟨mid, happend, -, hcontent, hlast⟩ :=
    append_settle hp hroom (Array.replicate size x) (by rw [Array.size_replicate]; exact hlen)
  rw [after_of_append happend] at hcontent hlast
  exact ⟨_, readContents_run_eq hp last hpos hlen x rest n hroom, hcontent, hlast⟩

/-- A piece that repeats a byte is nothing else. -/
theorem eq_replicate_of_repeated? {piece : Bytes} {x : UInt8} (h : repeated? piece = some x) :
    0 < piece.length ∧ piece = List.replicate piece.length x := by
  unfold repeated? at h
  split at h
  · rename_i y z b
    split at h
    · rename_i hall
      obtain ⟨rfl, hall⟩ := hall
      cases h
      refine ⟨Nat.succ_pos _, ?_⟩
      -- the byte stands first, second, and wherever else there is one
      rw [List.eq_replicate_iff]
      refine ⟨rfl, fun a ha => ?_⟩
      rw [List.all_eq_true] at hall
      rcases List.mem_cons.mp ha with rfl | ha
      · rfl
      · rcases List.mem_cons.mp ha with rfl | ha
        · rfl
        · exact eq_of_beq (hall a ha)
    · cases h
  · cases h

/-- **One block, read back.** However a piece is stored, it comes behind the contents, and the number of
bytes that are taken is the number that was written. -/
theorem exists_readContents_writeBlock (level : Int) (last : Bool) (piece : Bytes) :
    ∃ kind stored, writeBlock level last piece =
        Block.Header.toBytes ⟨last, kind, piece.length⟩ ++ stored ∧
      ∀ {p : Plan}, p.Streams → piece.length ≤ p.header.blockLimit →
        ∀ (rest : Bytes) (n : Nat) {h : History}, HasRoom p h.output →
          ∃ after, readContents p ⟨last, kind, piece.length⟩ ⟨stored ++ rest, n⟩ h =
              .ok (after, ⟨rest, n + stored.length⟩) ∧
            after.output.content = h.output.content ++ piece.toArray ∧ HasRoom p after.output := by
  unfold writeBlock
  split
  · rename_i x hx
    refine ⟨.run, [x], rfl, fun {p} hp hlen rest n h hroom => ?_⟩
    -- the level may forbid runs, so that this piece repeats a byte
    have hx : repeated? piece = some x := by
      split at hx
      · cases hx
      · exact hx
    obtain ⟨hpos, hpiece⟩ := eq_replicate_of_repeated? hx
    have hpiece : piece.toArray = Array.replicate piece.length x := by
      rw [← List.toArray_replicate, ← hpiece]
    rw [hpiece]
    exact readContents_run hp last hpos hlen x rest n hroom
  · exact ⟨.raw, piece, rfl, fun {p} hp hlen rest n h hroom =>
      readContents_raw hp last hlen rest n hroom⟩

theorem blockLimit_lt (header : Header) : header.blockLimit < 2097152 := by
  have : header.blockLimit ≤ Literals.blockLimit := Nat.min_le_right _ _
  have : Literals.blockLimit = 131072 := rfl
  omega

/-- The decoder is behind the block, at the next one unless it was the last. -/
theorem blocks_writeBlock (hp : p.Streams) (level : Int) (last : Bool) {piece : Bytes}
    (hlen : piece.length ≤ p.header.blockLimit) (rest : Bytes) (n : Nat) {h : History}
    (hroom : HasRoom p h.output) :
    ∃ after, blocks p ⟨writeBlock level last piece ++ rest, n⟩ h =
        (if last then .ok (after, ⟨rest, n + (writeBlock level last piece).length⟩)
          else blocks p ⟨rest, n + (writeBlock level last piece).length⟩ after) ∧
      after.output.content = h.output.content ++ piece.toArray ∧ HasRoom p after.output := by
  obtain ⟨kind, stored, hwrite, hread⟩ := exists_readContents_writeBlock level last piece
  have hhead := Source.take_append (Block.Header.toBytes ⟨last, kind, piece.length⟩)
    (stored ++ rest) n
  rw [Block.Header.length_toBytes] at hhead
  have hofBytes : Block.Header.ofBytes (Block.Header.toBytes ⟨last, kind, piece.length⟩) =
      .ok ⟨last, kind, piece.length⟩ := by
    apply Block.Header.ofBytes_toBytes
    exact Nat.lt_of_le_of_lt hlen (blockLimit_lt p.header)
  obtain ⟨after, hread, hafter⟩ := hread hp hlen rest (n + Block.Header.length) hroom
  refine ⟨after, ?_, hafter⟩
  -- the header comes first, then what is stored, then what follows the block
  rw [hwrite, List.length_append, Block.Header.length_toBytes, List.append_assoc, ← Nat.add_assoc]
  rw [blocks.eq_def]
  split
  · rename_i he
    rw [hhead] at he
    cases he
  · rename_i raw behind he
    rw [hhead] at he
    cases he
    rw [hofBytes]
    simp only
    split
    · rename_i hc
      rw [hread] at hc
      cases hc
    · rename_i mid at_end hc
      rw [hread] at hc
      cases hc
      cases last <;> simp [hp.undeclared]

/-- **The blocks of a frame.** They are read back up to the last one, and what follows is left alone. -/
theorem blocks_writeBlocks (hp : p.Streams) (level : Int) {pieces : List Bytes} (hne : pieces ≠ [])
    (hlen : ∀ piece ∈ pieces, piece.length ≤ p.header.blockLimit) (rest : Bytes) (n : Nat)
    {h : History} (hroom : HasRoom p h.output) :
    ∃ after, blocks p ⟨writeBlocks level pieces ++ rest, n⟩ h =
        .ok (after, ⟨rest, n + (writeBlocks level pieces).length⟩) ∧
      after.output.content = h.output.content ++ pieces.flatten.toArray := by
  -- the room in the buffer is what each block hands on to the next one
  induction pieces generalizing n h with
  | nil => exact absurd rfl hne
  | cons piece pieces ih =>
    have hpiece := hlen piece List.mem_cons_self
    cases pieces with
    | nil =>
      obtain ⟨after, hread, hafter, -⟩ := blocks_writeBlock hp level true hpiece rest n hroom
      refine ⟨after, hread, ?_⟩
      rw [List.flatten_cons, List.flatten_nil, List.append_nil, hafter]
    | cons next pieces =>
      obtain ⟨mid, hread, hmid, hroom⟩ := blocks_writeBlock hp level false hpiece
        (writeBlocks level (next :: pieces) ++ rest) n hroom
      have hpieces : ∀ piece ∈ next :: pieces, piece.length ≤ p.header.blockLimit :=
        fun piece hmem => hlen piece (List.mem_cons_of_mem _ hmem)
      obtain ⟨after, htail, hafter⟩ := ih (List.cons_ne_nil _ _) hpieces
        (n + (writeBlock level false piece).length) hroom
      refine ⟨after, ?_, ?_⟩
      · rw [writeBlocks, List.append_assoc, hread, if_neg Bool.false_ne_true, htail,
          List.length_append, Nat.add_assoc]
        exact List.cons_ne_nil _ _
      · rw [hafter, hmid, Array.append_assoc, List.flatten_cons (l := piece),
          ← List.append_toArray piece]

/-! ### Whole frames -/

theorem pieces_ne_nil (content : Bytes) : pieces content ≠ [] := by
  rw [pieces]
  split <;> exact List.cons_ne_nil _ _

theorem flatten_pieces (content : Bytes) : (pieces content).flatten = content := by
  fun_induction pieces content with
  | case1 content _ => exact List.append_nil content
  | case2 content _ ih => rw [List.flatten_cons, ih, List.take_append_drop]

theorem length_le_of_mem_pieces {content piece : Bytes} (h : piece ∈ pieces content) :
    piece.length ≤ Literals.blockLimit := by
  fun_induction pieces content with
  | case1 content hlen =>
    rw [List.mem_singleton] at h
    rw [h]
    exact hlen
  | case2 content _ ih =>
    rcases List.mem_cons.mp h with rfl | h
    · rw [List.length_take]
      exact Nat.min_le_left _ _
    · exact ih h

/-- What the header of a written frame says. -/
def written : Header := { contentSize := none, window := 131072, checksum := true, dictionary := false }

theorem read_writtenHeader (rest : Bytes) (n : Nat) :
    Header.read ⟨writtenHeader ++ rest, n⟩ = .ok (written, ⟨rest, n + writtenHeader.length⟩) := by
  rfl

/-- How a written frame is decoded. -/
def writtenPlan : Plan :=
  { header := written, size := outputSize written.window written.blockLimit none, atOnce := false }

theorem blockLimit_writtenPlan : writtenPlan.header.blockLimit = Literals.blockLimit := by decide

theorem streams_writtenPlan : writtenPlan.Streams := ⟨rfl, rfl, by decide⟩

/-- A written frame is never decoded at once, for it declares no size. -/
theorem plan_written (front s : Source) :
    plan {} written front s = .ok (writtenPlan, ({} : Buffers).provide 131072 writtenPlan.size) := by
  rfl

theorem readChecksum_written (content rest : Bytes) (n : Nat) :
    readChecksum written content ⟨Checksum.ofContent content ++ rest, n⟩ =
      .ok ⟨rest, n + checksumLength⟩ := by
  have hsum := Source.take_append (Checksum.ofContent content) rest n
  rw [Checksum.length_ofContent] at hsum
  simp only [readChecksum, written, checksumLength, hsum, if_true]

/-- A frame is decoded when its parts are. -/
theorem decodeContents_of_parts {buffers buffers' : Buffers} {front s s₁ s₂ s₃ : Source} {header : Header}
    {p : Plan} {history : History} (hread : Header.read s = .ok (header, s₁))
    (hplan : plan buffers header front s₁ = .ok (p, buffers'))
    (hblocks : blocks p s₁ {} = .ok (history, s₂))
    (hsum : readChecksum header history.output.content.toList s₂ = .ok s₃) :
    decodeContents buffers front s = .ok (history.output.content.toList, buffers', s₃) := by
  simp only [decodeContents, hread, hplan, hblocks, hsum, bind, Except.bind, pure, Except.pure]

theorem decodeContents_append (level : Int) (content rest : Bytes) (front : Source) (n : Nat) :
    ∃ buffers after, decodeContents {} front
        ⟨writtenHeader ++ (writeBlocks level (pieces content) ++ (Checksum.ofContent content ++ rest)), n⟩ =
      .ok (content, buffers, ⟨rest, after⟩) := by
  have hlen : ∀ piece ∈ pieces content, piece.length ≤ writtenPlan.header.blockLimit := by
    intro piece hmem
    rw [blockLimit_writtenPlan]
    exact length_le_of_mem_pieces hmem
  obtain ⟨history, hblocks, hhistory⟩ := blocks_writeBlocks streams_writtenPlan level
    (pieces_ne_nil content) hlen (Checksum.ofContent content ++ rest) (n + writtenHeader.length)
    (h := {}) (hasRoom_empty streams_writtenPlan)
  -- the pieces, one after another, are the contents, so that the checksum is theirs
  have hcontent : history.output.content.toList = content := by
    rw [hhistory, flatten_pieces, Array.toList_append]
    rfl
  have hsum (k : Nat) : readChecksum written history.output.content.toList
      ⟨Checksum.ofContent content ++ rest, k⟩ = .ok ⟨rest, k + checksumLength⟩ := by
    rw [hcontent]
    exact readChecksum_written content rest k
  have hdecode := decodeContents_of_parts (read_writtenHeader _ n) (plan_written front _) hblocks (hsum _)
  rw [hcontent] at hdecode
  exact ⟨_, _, hdecode⟩

theorem decode_compress (level : Int) (content : Bytes) :
    ∃ buffers after, decode {} ⟨compress level content, 0⟩ = .ok (content, buffers, ⟨[], after⟩) := by
  obtain ⟨buffers, after, h⟩ :=
    decodeContents_append level content [] ⟨compress level content, 0⟩ magic.length
  refine ⟨buffers, after, ?_⟩
  have hstart : start ⟨compress level content, 0⟩ = .contents := rfl
  have hbehind : behindMagic ⟨compress level content, 0⟩ = ⟨writtenHeader ++
      (writeBlocks level (pieces content) ++ (Checksum.ofContent content ++ [])), magic.length⟩ := by
    rw [List.append_nil, ← List.append_assoc writtenHeader]
    rfl
  rw [decode, hstart, hbehind]
  exact h

end Frame

theorem compress_ne_nil (level : Int) (content : Bytes) : compress level content ≠ [] :=
  List.cons_ne_nil _ _

/-! ### Sequences of frames -/

variable {buffers buffers' : Buffers} {s rest : Source}

theorem decodeAll_nil (buffers : Buffers) (n : Nat) : decodeAll buffers ⟨[], n⟩ = .ok [] := by
  rw [decodeAll.eq_def]
  rfl

/-- The first frame is decoded first. -/
theorem decodeAll_of_decode {content : Bytes}
    (hframe : Frame.decode buffers s = .ok (content, buffers', rest)) :
    decodeAll buffers s = (decodeAll buffers' rest).map (content ++ ·) := by
  have hne : ¬ s.rest.isEmpty = true := by
    intro hempty
    have hlength := Frame.decode_length hframe
    rw [List.isEmpty_iff.mp hempty] at hlength
    exact Nat.not_lt_zero _ hlength
  rw [decodeAll.eq_def, if_neg hne]
  split
  · rename_i he
    rw [hframe] at he
    cases he
  · rename_i he
    rw [hframe] at he
    cases he
    rfl

theorem decodeAll_of_fault {e : Fault} (hne : s.rest ≠ []) (hframe : Frame.decode buffers s = .error e) :
    decodeAll buffers s = .error e := by
  rw [decodeAll.eq_def, if_neg (mt List.isEmpty_iff.mp hne)]
  split
  · rename_i he
    rw [hframe] at he
    cases he
    rfl
  · rename_i he
    rw [hframe] at he
    cases he

theorem decompress_of_ne_nil {b : Bytes} (hne : b ≠ []) : decompress b = decodeAll {} { rest := b } := by
  rw [decompress, if_neg (mt List.isEmpty_iff.mp hne)]

/-- **Compression loses nothing.** What is decompressed is what was compressed, at every level. -/
theorem decompress_compress (level : Int) (content : Bytes) :
    decompress (compress level content) = .ok content := by
  obtain ⟨buffers, after, hframe⟩ := Frame.decode_compress level content
  rw [decompress_of_ne_nil (compress_ne_nil level content), decodeAll_of_decode hframe, decodeAll_nil]
  simp only [Except.map, List.append_nil]

end SnapStore.Zstandard
