import SnapStore.Zstandard.Frame

namespace SnapStore.Zstandard

/-!
# The rules of the format

What a sequence of frames holds can be said without a decoder.  There is no buffer then, and no chunk ends
anywhere: the contents of a frame are one array, and a block copies from as far back in it as the window
goes.  A frame that breaks a rule holds nothing.

* `Format.execute` carries out the sequences of a block, `Format.decompress` a compressed block.
* `Format.blocks` reads the blocks of a frame, `Format.frame` a frame.
* `Format.contents` are the contents of a sequence of frames, and `Format.Keeps` says that no rule is
  broken.

`decompress` is laxer than that, and not always in the same way.  It looks at the size of the window and of
the blocks unless it decodes a frame at once, and it lets a block copy from beyond the window, if only its
buffer goes far enough.
-/

namespace Format

/-- What the blocks of a frame leave for those after them. -/
structure Past where
  content : Array UInt8 := #[]
  code : Option PrefixCode := none
  tables : Option Tables := none
  recent : Recent := {}

/-- The room of the next block: it is not larger than a block can be, nor than what is left of the declared
contents. -/
def space (h : Frame.Header) (content : Array UInt8) : Space where
  limit := h.blockLimit
  room := (h.contentSize.map (· - content.size)).getD h.blockLimit
  atOnce := false

/-! ### Blocks -/

/-- Puts the literals that no sequence takes behind the contents. -/
def finish (most : Nat) (l : Literals) (start taken : Nat) (content : Array UInt8) :
    Except Fault (Array UInt8) :=
  if most + taken < content.size - start + l.bytes.size then .error .outputTooSmall
  else .ok (content ++ l.bytes.extract taken l.bytes.size)

/-- Carries out `n` sequences, of which none copies from beyond the window or from in front of the
contents. -/
def execute (window most : Nat) (l : Literals) (t : Tables) (start : Nat) :
    Nat → Cursor → Nat → Array UInt8 → Except Fault (Array UInt8 × Recent)
  | 0, c, taken, content =>
    if c.bits.isDone then (finish most l start taken content).map (·, c.recent) else .error .corrupted
  | n + 1, c, taken, content =>
    let (q, c) := t.next (n = 0) c
    if most < content.size - start + q.literals + q.length then .error .outputTooSmall
    else if l.bytes.size < taken + q.literals then .error .corrupted
    else
      let content := content ++ l.bytes.extract taken (taken + q.literals)
      if q.distance = 0 ∨ window < q.distance ∨ content.size < q.distance then .error .corrupted
      else
        execute window most l t start n c (taken + q.literals)
          (Output.repeatFrom q.distance q.length content)

/-- The contents of a compressed block, behind those of the blocks before it. -/
def decompress (window : Nat) (space : Space) (data : Array UInt8) (m : Past) : Except Fault Past := do
  if space.limit < data.size then throw .wrongSize
  let l ← Literals.read space m.code data
  let s ← Sequences.read m.tables data l.size
  let start := m.content.size
  if s.count = 0 then
    let content ← finish space.capacity l start 0 m.content
    pure { m with content, code := l.code }
  else if space.capacity = 0 then throw .outputTooSmall
  else
    match s.tables, Backward.open? data s.start data.size with
    | some t, some bits =>
      let (content, recent) ←
        execute window space.capacity l t start s.count (t.enter m.recent bits) 0 m.content
      pure ⟨content, l.code, s.tables, recent⟩
    | _, _ => throw .corrupted

/-- Puts the bytes of a block that is not compressed behind the contents. -/
def append (most : Nat) (bytes : Array UInt8) (m : Past) : Except Fault Past :=
  if most < bytes.size then .error .outputTooSmall else .ok { m with content := m.content ++ bytes }

theorem finish_eq_ok_iff {most start taken : Nat} {l : Literals} {content after : Array UInt8} :
    finish most l start taken content = .ok after ↔ ¬ most + taken < content.size - start + l.bytes.size ∧
      content ++ l.bytes.extract taken l.bytes.size = after := by
  rw [finish, refuse_eq_ok_iff, Except.ok.injEq]

theorem execute_zero_eq_ok {window most start taken : Nat} {l : Literals} {t : Tables} {c : Cursor}
    {content after : Array UInt8} {recent : Recent}
    (h : execute window most l t start 0 c taken content = .ok (after, recent)) :
    c.bits.isDone = true ∧ finish most l start taken content = .ok after ∧ c.recent = recent := by
  rw [execute] at h
  split at h
  · rename_i hdone
    obtain ⟨out, hfinish, h⟩ := map_eq_ok_iff.mp h
    cases h
    exact ⟨hdone, hfinish, rfl⟩
  · cases h

/-- What a sequence that is carried out needs. -/
theorem execute_succ_eq_ok_iff {window most start n taken : Nat} {l : Literals} {t : Tables} {c : Cursor}
    {content after : Array UInt8} {recent : Recent} :
    execute window most l t start (n + 1) c taken content = .ok (after, recent) ↔
      let q := (t.next (n = 0) c).1
      let content' := content ++ l.bytes.extract taken (taken + q.literals)
      content.size - start + q.literals + q.length ≤ most ∧ taken + q.literals ≤ l.bytes.size ∧
        (0 < q.distance ∧ q.distance ≤ window ∧ q.distance ≤ content'.size) ∧
          execute window most l t start n (t.next (n = 0) c).2 (taken + q.literals)
            (Output.repeatFrom q.distance q.length content') = .ok (after, recent) := by
  rw [execute]
  simp only [refuse_eq_ok_iff, not_or, Nat.not_lt, Nat.pos_iff_ne_zero, ne_eq]

/-- What a compressed block that is decoded needs: there are sequences in it or not. -/
theorem decompress_eq_ok {window : Nat} {space : Space} {data : Array UInt8} {m after : Past}
    (h : decompress window space data m = .ok after) :
    data.size ≤ space.limit ∧ ∃ l s, Literals.read space m.code data = .ok l ∧
      Sequences.read m.tables data l.size = .ok s ∧
        ((s.count = 0 ∧ ∃ content, finish space.capacity l m.content.size 0 m.content = .ok content ∧
            after = { m with content, code := l.code }) ∨
          (s.count ≠ 0 ∧ space.capacity ≠ 0 ∧ ∃ t bits content recent, s.tables = some t ∧
            Backward.open? data s.start data.size = some bits ∧
              execute window space.capacity l t m.content.size s.count (t.enter m.recent bits) 0 m.content =
                .ok (content, recent) ∧ after = ⟨content, l.code, s.tables, recent⟩)) := by
  obtain ⟨hsize, h⟩ := refuse_eq_ok_iff.mp h
  obtain ⟨l, hl, h⟩ := bind_eq_ok_iff.mp h
  obtain ⟨s, hs, h⟩ := bind_eq_ok_iff.mp h
  refine ⟨Nat.not_lt.mp hsize, l, s, hl, hs, ?_⟩
  split at h
  · rename_i hcount
    obtain ⟨content, hfinish, h⟩ := bind_eq_ok_iff.mp h
    cases h
    exact .inl ⟨hcount, content, hfinish, rfl⟩
  · rename_i hcount
    obtain ⟨hcapacity, h⟩ := refuse_eq_ok_iff.mp h
    cases ht : s.tables with
    | none =>
      rw [ht] at h
      cases h
    | some t =>
      cases hbits : Backward.open? data s.start data.size with
      | none =>
        simp only [ht, hbits] at h
        cases h
      | some bits =>
        simp only [ht, hbits] at h
        obtain ⟨⟨content, recent⟩, hexecute, h⟩ := bind_eq_ok_iff.mp h
        cases h
        exact .inr ⟨hcount, hcapacity, t, bits, content, recent, rfl, rfl, hexecute, rfl⟩

theorem append_eq_ok_iff {most : Nat} {bytes : Array UInt8} {m after : Past} :
    append most bytes m = .ok after ↔ bytes.size ≤ most ∧
    { m with content := m.content ++ bytes } = after := by
  rw [append, refuse_eq_ok_iff, Nat.not_lt, Except.ok.injEq]

/-- The contents of a block, behind those of the blocks before it. -/
def block (h : Frame.Header) (header : Block.Header) (b : Bytes) (m : Past) : Except Fault Past :=
  let space := space h m.content
  match header.kind with
  | .raw => append space.capacity b.toArray m
  | .run => append space.capacity (Array.replicate header.size (b.headD 0)) m
  | .compressed => decompress h.window space b.toArray m

/-- The contents of the blocks up to the last one.  They have the size that is declared, if one is. -/
def blocks (h : Frame.Header) (b : Bytes) (m : Past) : Except Fault (Past × Bytes) :=
  match _head : Bytes.split? Block.Header.length b with
  | none => .error .incomplete
  | some (raw, behind) =>
    match Block.Header.ofBytes raw with
    | .error e => .error e
    | .ok header =>
      if h.blockLimit < header.stored then .error .corrupted
      else
        match _body : Bytes.split? header.stored behind with
        | none => .error .incomplete
        | some (stored, rest) =>
          match block h header stored m with
          | .error e => .error e
          | .ok m =>
            if ! header.last then blocks h rest m
            else if h.contentSize.any (· ≠ m.content.size) then .error .corrupted
            else .ok (m, rest)
termination_by b.length
decreasing_by
  obtain ⟨rfl, h1⟩ := Bytes.eq_append_of_split? _head
  obtain ⟨rfl, _⟩ := Bytes.eq_append_of_split? _body
  simp only [Block.Header.length] at h1
  simp only [List.length_append]
  omega

theorem blocks_length {h : Frame.Header} {b rest : Bytes} {m after : Past}
    (hb : blocks h b m = .ok (after, rest)) : rest.length ≤ b.length := by
  fun_induction blocks h b m with
  | case6 b m raw behind head header _ _ stored rest' body m' _ _ ih =>
    obtain ⟨rfl, -⟩ := Bytes.eq_append_of_split? head
    obtain ⟨rfl, -⟩ := Bytes.eq_append_of_split? body
    have := ih hb
    simp only [List.length_append]
    omega
  | case8 b m raw behind head header _ _ stored rest' body m' _ _ _ =>
    obtain ⟨rfl, -⟩ := Bytes.eq_append_of_split? head
    obtain ⟨rfl, -⟩ := Bytes.eq_append_of_split? body
    cases hb
    simp only [List.length_append]
    omega
  | _ => cases hb

/-! ### Frames -/

/-- The contents of the frame at the front.  Frames of earlier editions have other rules. -/
def frame : Reader Fault Bytes := fun b =>
  match Frame.start { rest := b } with
  | .contents => do
    let (h, s) ← Frame.Header.read (Frame.behindMagic { rest := b })
    if h.dictionary then throw .dictionaryMismatch
    if Frame.windowLimit < h.window then throw .windowTooLarge
    let (m, rest) ← blocks h s.rest {}
    let content := m.content.toList
    let s ← Frame.readChecksum h content { rest }
    pure (content, s.rest)
  | .skippable => do
    let (_, _, s) ← Frame.skip {} (Frame.behindMagic { rest := b })
    pure ([], s.rest)
  | _ => .error .unsupportedVersion

theorem frame_length {b content rest : Bytes} (h : frame b = .ok (content, rest)) :
    rest.length < b.length := by
  unfold frame at h
  split at h
  · obtain ⟨⟨header, s⟩, hread, h⟩ := bind_eq_ok_iff.mp h
    obtain ⟨-, h⟩ := refuse_eq_ok_iff.mp h
    obtain ⟨-, h⟩ := refuse_eq_ok_iff.mp h
    obtain ⟨⟨m, behind⟩, hblocks, h⟩ := bind_eq_ok_iff.mp h
    obtain ⟨s', hsum, h⟩ := bind_eq_ok_iff.mp h
    cases h
    have h1 := Frame.Header.read_length hread
    have h2 := blocks_length hblocks
    have h3 := Frame.readChecksum_length hsum
    simp only [Frame.behindMagic, List.length_drop] at h1 h3
    omega
  · obtain ⟨⟨_, _, s⟩, hskip, h⟩ := bind_eq_ok_iff.mp h
    cases h
    have := Frame.skip_length hskip
    simp only [Frame.behindMagic, List.length_drop] at this
    omega
  · cases h

/-- The contents of a sequence of frames. -/
def contents (b : Bytes) : Except Fault Bytes :=
  if b.isEmpty then .ok []
  else
    match _frame : frame b with
    | .error e => .error e
    | .ok (content, rest) => (contents rest).map (content ++ ·)
termination_by b.length
decreasing_by exact frame_length _frame

/-- The bytes are a sequence of frames that break no rule. -/
def Keeps (b : Bytes) : Prop := ∃ content, contents b = .ok content

end Format

end SnapStore.Zstandard
