import SnapStore.Proofs.Cache.Chronicle
import SnapStore.Proofs.Cache.Lanes

namespace SnapStore.Cache

/-!
# Counting saves

A save notes its generation after it has filled the slot.  Until then it is the only thread with the write
lane in hand, and its generation is the one that counts.

* `Machine.count` — the generation of the last save that is known of.
* `Machine.count_of_load`, `Machine.count_of_invalidate`, `Save.counting` — what a step means for it.
* `Machine.Numbered` — a save that is about to fill the slot has the next generation.
* `Turn.count` — so a save that fills the slot counts on by one, and nothing makes the count fall.
* `Chronicle.Rising` — the generations of the saves rise, in the order of the write lane.
-/

variable {σ M : Type}

/-! ### The count -/

/-- The generation that a save is about to note: it has filled the slot. -/
def Save.noting? : Save M → Option UInt64
  | .commit _ r => some r.header.generation
  | _ => none

/-- The generation that a thread is about to note. -/
def Activity.noting? : Activity M → Option UInt64
  | .save p => p.noting?
  | _ => none

/-- The generation of the last save that is known of: the one that the holder of the write lane is about to
note, or else the one that is noted. -/
def Machine.count (m : Machine σ M) : UInt64 :=
  (m.shared.writeLane.bind fun a => (m.activity a).noting?).getD m.shared.generation

theorem Activity.holdsWrite_of_noting? {a : Activity M} {g : UInt64} (h : a.noting? = some g) :
    a.holdsWrite = true := by
  cases a with
  | save p => cases p <;> first | rfl | cases h
  | _ => cases h

section Steps

variable {c : Setup σ M} {m m' : Machine σ M} {me : Actor} {o : Outside}

theorem Machine.Lanes.count_of_noting (lanes : m.Lanes) {a : Actor} {g : UInt64}
    (h : (m.activity a).noting? = some g) : m.count = g := by
  have hlane := (lanes.write a).mpr (Activity.holdsWrite_of_noting? h)
  simp only [Machine.count, hlane, Option.bind_some, h, Option.getD_some]

/-- If nobody else is about to note a generation, then the count is a matter of one thread. -/
theorem Machine.Lanes.count_of_others (lanes : m.Lanes)
    (h : ∀ a, a ≠ me → (m.activity a).noting? = none) :
    m.count = (m.activity me).noting?.getD m.shared.generation := by
  cases hme : (m.activity me).noting? with
  | some g => rw [lanes.count_of_noting hme, Option.getD_some]
  | none =>
    have hall : (m.shared.writeLane.bind fun a => (m.activity a).noting?) = none := by
      rw [Option.bind_eq_none_iff]
      intro a _
      by_cases ha : a = me
      · rw [ha, hme]
      · exact h a ha
    rw [Machine.count, hall]

/-- **One thread.** A step of a thread means nothing for the count while another one is about to note a
generation.  Otherwise the count is a matter of the thread that takes the step. -/
theorem Machine.Lanes.count_cases (lanes : m.Lanes) (lanes' : m'.Lanes)
    (others : ∀ a, a ≠ me → m'.activity a = m.activity a) :
    m'.count = m.count ∧ (m.activity me).holdsWrite = false ∨
      m.count = (m.activity me).noting?.getD m.shared.generation ∧
        m'.count = (m'.activity me).noting?.getD m'.shared.generation := by
  by_cases h : ∀ a, a ≠ me → (m.activity a).noting? = none
  · exact .inr ⟨lanes.count_of_others h,
      lanes'.count_of_others fun a ha => by rw [others a ha]; exact h a ha⟩
  · -- the other thread has the write lane in hand, before and after
    simp only [not_forall] at h
    obtain ⟨a, ha, hnoting⟩ := h
    obtain ⟨g, hg⟩ := Option.ne_none_iff_exists'.mp hnoting
    refine .inl ⟨?_, ?_⟩
    · rw [lanes.count_of_noting hg]
      exact lanes'.count_of_noting (a := a) (by rw [others a ha, hg])
    · by_contra hme
      exact ha (lanes.write.unique (Activity.holdsWrite_of_noting? hg) (Bool.of_not_eq_false hme))

/-! ### What a step means for the count -/

private theorem le_max_left_of_word (a b : UInt64) : a ≤ max a b := by
  rw [show max a b = if a ≤ b then b else a from rfl]
  split
  · assumption
  · exact UInt64.le_refl a

theorem Load.generation_eq {s s' : Shared σ M} {p p' : Load M} (h : p.step c me o s = some (p', s')) :
    s'.generation = s.generation ∧ s'.seeded = s.seeded ∧ (∀ header model, p ≠ .publish header model) ∨
      ∃ header model, p = .publish header model ∧ s'.generation = max s.generation header.generation ∧
        s'.seeded = true := by
  cases p with
  | peek | recheck | enter | install =>
    simp only [Load.step] at h
    split at h <;> cases h <;> exact .inl ⟨rfl, rfl, by simp⟩
  | consult | fetch | complain | leave =>
    cases h
    exact .inl ⟨rfl, rfl, by simp⟩
  | receive found =>
    simp only [Load.step] at h
    split at h
    · cases h
      exact .inl ⟨rfl, rfl, by simp⟩
    · cases h
      exact .inl ⟨rfl, rfl, by simp⟩
    · split at h <;> cases h <;> exact .inl ⟨rfl, rfl, by simp⟩
  | fail e =>
    cases h
    split <;> exact .inl ⟨rfl, rfl, by simp⟩
  | publish header model =>
    cases h
    exact .inr ⟨header, model, rfl, rfl, rfl⟩
  | done result => cases h

theorem Invalidation.generation_eq {s s' : Shared σ M} {p p' : Invalidation}
    (h : p.step c me o s = some (p', s')) :
    s'.generation = s.generation ∧ s'.seeded = s.seeded := by
  cases p with
  | cancel | forget | absolve | leave =>
    cases h
    exact ⟨rfl, rfl⟩
  | enterLoad | enterWrite | remove =>
    simp only [Invalidation.step] at h
    split at h <;> cases h <;> exact ⟨rfl, rfl⟩
  | done result => cases h

/-- A load counts what it publishes. -/
theorem Machine.count_of_load (lanes : m.Lanes) (lanes' : m'.Lanes) {p p' : Load M}
    (was : m.activity me = .load p) (now : m'.activity me = .load p')
    (others : ∀ a, a ≠ me → m'.activity a = m.activity a)
    (step : p.step c me o m.shared = some (p', m'.shared)) :
    m'.count = m.count ∧ (∀ header model, p ≠ .publish header model) ∨
      ∃ header model, p = .publish header model ∧ m'.count = max m.count header.generation := by
  rcases lanes.count_cases lanes' others with ⟨hcount, hwrite⟩ | ⟨hcount, hcount'⟩
  · refine .inl ⟨hcount, ?_⟩
    rintro header model rfl
    rw [was] at hwrite
    cases hwrite
  · rw [was] at hcount
    rw [now] at hcount'
    replace hcount : m.count = m.shared.generation := hcount
    replace hcount' : m'.count = m'.shared.generation := hcount'
    rcases Load.generation_eq step with ⟨hg, -, hp⟩ | ⟨header, model, hp, hg, -⟩
    · exact .inl ⟨by rw [hcount', hg, hcount], hp⟩
    · exact .inr ⟨header, model, hp, by rw [hcount', hg, hcount]⟩

theorem Machine.count_of_invalidate (lanes : m.Lanes) (lanes' : m'.Lanes) {p p' : Invalidation}
    (was : m.activity me = .invalidate p) (now : m'.activity me = .invalidate p')
    (others : ∀ a, a ≠ me → m'.activity a = m.activity a)
    (step : p.step c me o m.shared = some (p', m'.shared)) : m'.count = m.count := by
  rcases lanes.count_cases lanes' others with ⟨hcount, -⟩ | ⟨hcount, hcount'⟩
  · exact hcount
  · rw [was] at hcount
    rw [now] at hcount'
    replace hcount : m.count = m.shared.generation := hcount
    replace hcount' : m'.count = m'.shared.generation := hcount'
    rw [hcount', (Invalidation.generation_eq step).1, hcount]

/-- A step outside the lanes does not count. -/
theorem Machine.count_of_edge (lanes : m.Lanes) (lanes' : m'.Lanes)
    (was : (m.activity me).isAtEdge = true) (now : (m'.activity me).isAtEdge = true)
    (others : ∀ a, a ≠ me → m'.activity a = m.activity a)
    (generation : m'.shared.generation = m.shared.generation) : m'.count = m.count := by
  have hnone {a : Activity M} (h : a.isAtEdge = true) : a.noting? = none := by
    by_contra hg
    obtain ⟨g, hg⟩ := Option.ne_none_iff_exists'.mp hg
    have := Activity.holdsWrite_of_noting? hg
    rw [Activity.holdsWrite_of_isAtEdge h] at this
    cases this
  rcases lanes.count_cases lanes' others with ⟨hcount, -⟩ | ⟨hcount, hcount'⟩
  · exact hcount
  · rw [hcount', hcount, hnone was, hnone now, Option.getD_none, Option.getD_none, generation]

/-! ### Saves count on -/

/-- Whether a save has read the slot and does not know yet what that means for the count. -/
def Save.isSeeding : Save M → Bool
  | .receive .. => true
  | _ => false

/-- What a step of a save means for the count: nothing, or the save looks for the generation in the slot,
or takes it over, or fills the slot. -/
inductive Save.Counting (c : Setup σ M) (o : Outside) (s s' : Shared σ M) : Save M → Save M → Prop
  | still {p p' : Save M} (count : p'.noting?.getD s'.generation = p.noting?.getD s.generation)
      (seeded : s'.seeded = s.seeded) (was : p.isSeeding = false) (now : p'.isSeeding = false)
      (deed : p.deed? c o s.slot = none)
      (slot : ∀ content, c.slot.Lawful content → content s'.slot = content s.slot) :
      Save.Counting c o s s' p p'
  | seed (model : M) (fresh : s.seeded = false) (eq : s' = { s with seeded := true }) :
      Save.Counting c o s s' (.seed model) (.receive model (c.slot.read s.slot))
  | receive (model : M) (found : Except CacheError (Option Bytes))
      (eq : s' = { s with
        generation := (generation? (o.outcome found)).elim s.generation (max s.generation) }) :
      Save.Counting c o s s' (.receive model found) (.encode model)
  | write (model : M) (h : Snapshot.Header) (blob : Bytes)
      (done : o.change (c.slot.write blob) s.slot = (.ok (), s'.slot))
      (eq : s' = { s with slot := s'.slot }) :
      Save.Counting c o s s' (.write model h blob) (.commit model ⟨h, blob.length⟩)

theorem Save.counting {s s' : Shared σ M} {p p' : Save M} (h : p.step c me o s = some (p', s')) :
    Save.Counting c o s s' p p' := by
  cases p with
  | enter | capture | encode =>
    simp only [Save.step] at h
    split at h <;> cases h <;> exact .still rfl rfl rfl rfl rfl fun _ _ => rfl
  | seed model =>
    simp only [Save.step] at h
    split at h <;> rename_i hseeded <;> cases h
    · exact .still rfl rfl rfl rfl rfl fun _ _ => rfl
    · exact .seed model (Bool.of_not_eq_true hseeded) rfl
  | receive model found =>
    simp only [Save.step] at h
    split at h <;> rename_i hg <;> cases h <;> exact .receive model found (by rw [hg]; rfl)
  | write model header blob =>
    simp only [Save.step] at h
    split at h <;> rename_i hw <;> cases h
    · exact .write model header blob hw rfl
    · refine .still rfl rfl rfl rfl (by simp only [Save.deed?, hw]) fun content hslot => ?_
      exact content_of_failed_write hslot hw
  | commit | publish | record | leave =>
    cases h
    exact .still rfl rfl rfl rfl rfl fun _ _ => rfl
  | done result => cases h

/-- With the write lane in hand, the count is a matter of the save that has it. -/
theorem Machine.count_of_save (lanes : m.Lanes) (lanes' : m'.Lanes) {p p' : Save M}
    (was : m.activity me = .save p) (now : m'.activity me = .save p')
    (others : ∀ a, a ≠ me → m'.activity a = m.activity a) (hp : p.holdsWrite = true) :
    m.count = p.noting?.getD m.shared.generation ∧ m'.count = p'.noting?.getD m'.shared.generation := by
  have hcases := lanes.count_cases lanes' others
  rw [was, now] at hcases
  exact hcases.resolve_left fun h => by cases hp.symm.trans h.2

/-- A save that does not count leaves the count alone. -/
theorem Machine.count_of_still (lanes : m.Lanes) (lanes' : m'.Lanes) {p p' : Save M}
    (was : m.activity me = .save p) (now : m'.activity me = .save p')
    (others : ∀ a, a ≠ me → m'.activity a = m.activity a)
    (count : p'.noting?.getD m'.shared.generation = p.noting?.getD m.shared.generation) :
    m'.count = m.count := by
  have hcases := lanes.count_cases lanes' others
  rw [was, now] at hcases
  rcases hcases with ⟨hcount, -⟩ | ⟨hcount, hcount'⟩
  · exact hcount
  · rw [hcount, hcount']
    exact count

/-! ### The next generation -/

/-- What a save knows about its number: since it took the write lane nobody else has counted. -/
def Save.Numbered (c : Setup σ M) (s : Shared σ M) : Save M → Prop
  | .receive .. | .encode _ => s.seeded = true
  | .write model h blob => s.seeded = true ∧ h.generation = s.generation + 1 ∧
      h.formatVersion = Snapshot.formatVersion ∧ Snapshot.encode c.codec h model c.level = .ok blob
  | _ => True

/-- Saves know their numbers. -/
def Machine.Numbered (c : Setup σ M) (m : Machine σ M) : Prop :=
  ∀ a p, m.activity a = .save p → p.Numbered c m.shared

theorem Save.Numbered.step {s s' : Shared σ M} {p p' : Save M} (hp : p.Numbered c s)
    (h : p.step c me o s = some (p', s')) : p'.Numbered c s' := by
  cases p with
  | enter | capture =>
    simp only [Save.step] at h
    split at h <;> cases h <;> trivial
  | seed model =>
    simp only [Save.step] at h
    split at h <;> rename_i hseeded <;> cases h
    · exact hseeded
    · rfl
  | receive model found =>
    simp only [Save.step] at h
    split at h <;> cases h <;> exact hp
  | encode model =>
    simp only [Save.step] at h
    split at h <;> rename_i hblob <;> cases h
    · exact ⟨hp, rfl, rfl, Outside.compressed_ok hblob⟩
    · trivial
  | write model header blob =>
    simp only [Save.step] at h
    split at h <;> cases h <;> trivial
  | commit | publish | record | leave =>
    cases h
    trivial
  | done result => cases h

/-- What a save knows without the write lane in hand is nothing. -/
theorem Save.numbered_of_holdsWrite {s : Shared σ M} {p : Save M} (h : p.holdsWrite = false) :
    p.Numbered c s := by
  cases p with
  | enter | done => trivial
  | _ => cases h

/-- Without the write lane in hand a save does not count. -/
theorem Save.generation_eq {s s' : Shared σ M} {p p' : Save M} (h : p.step c me o s = some (p', s'))
    (hp : p.holdsWrite = false) : s'.generation = s.generation ∧ s'.seeded = s.seeded := by
  cases p with
  | enter =>
    simp only [Save.step] at h
    split at h <;> cases h
    exact ⟨rfl, rfl⟩
  | done result => cases h
  | _ => cases hp

/-- What the others know stays true if nobody counts without the write lane in hand. -/
private theorem Machine.Numbered.of_step (h : m.Numbered c) (lanes : m.Lanes)
    (others : ∀ a, a ≠ me → m'.activity a = m.activity a)
    (saves : ∀ p, m'.activity me = .save p → p.Numbered c m'.shared)
    (hcount : (m.activity me).holdsWrite = false →
      m'.shared.generation = m.shared.generation ∧ m'.shared.seeded = m.shared.seeded) :
    m'.Numbered c := by
  intro a p hp
  by_cases ha : a = me
  · exact saves p (by rw [← ha]; exact hp)
  rw [others a ha] at hp
  cases hme : (m.activity me).holdsWrite with
  | false =>
    obtain ⟨hg, hs⟩ := hcount hme
    have := h a p hp
    cases p <;> simp only [Save.Numbered, hg, hs] at this ⊢ <;> exact this
  | true =>
    -- the lane is in one hand only
    apply Save.numbered_of_holdsWrite
    by_contra hwrite
    refine ha (lanes.write.unique ?_ hme)
    rw [hp]
    exact Bool.of_not_eq_false hwrite

/-- A save that is about to fill the slot has the next generation. -/
theorem Machine.Numbered.turn {l : Machine.Label σ M} (h : m.Numbered c) (lanes : m.Lanes)
    (turn : Turn c m m' l) : m'.Numbered c := by
  cases turn with
  | load me o p p' was now others step =>
    refine h.of_step lanes others (fun q hq => by rw [now] at hq; cases hq) fun hwrite => ?_
    rcases Load.generation_eq step with ⟨hg, hs, -⟩ | ⟨header, model, rfl, -⟩
    · exact ⟨hg, hs⟩
    · rw [was] at hwrite
      cases hwrite
  | save me o p p' was now others step =>
    refine h.of_step lanes others (fun q hq => ?_) fun hwrite => ?_
    · rw [now, Activity.save.injEq] at hq
      rw [← hq]
      exact (h me p was).step step
    · rw [was] at hwrite
      exact Save.generation_eq step hwrite
  | invalidate me o p p' was now others step =>
    exact h.of_step lanes others (fun q hq => by rw [now] at hq; cases hq)
      fun _ => Invalidation.generation_eq step
  | begin i call last was eq =>
    subst eq
    refine h.of_step lanes (fun a ha => Machine.activity_move_of_ne m _ _ ha) (fun q hq => ?_)
      fun _ => ⟨rfl, rfl⟩
    rw [Machine.activity_move_self] at hq
    cases call <;> cases hq
    trivial
  | edge me o was others core aside =>
    refine h.of_step lanes others (fun q hq => ?_) fun _ => ⟨core.generation, core.seeded⟩
    have hwrite := Activity.holdsWrite_of_isAtEdge aside.isAtEdge
    rw [hq] at hwrite
    exact Save.numbered_of_holdsWrite hwrite
  | host holder same shared_eq =>
    intro a p hp
    rw [same] at hp
    have := h a p hp
    rw [shared_eq]
    cases p <;> exact this
  | stranger slot same shared_eq =>
    intro a p hp
    rw [same] at hp
    have := h a p hp
    rw [shared_eq]
    cases p <;> exact this

theorem Machine.numbered_start (slot : σ) (holder : Holder M) (reports : Reports) :
    (Machine.start slot holder reports).Numbered c := by
  intro a p hp
  cases a <;> cases hp

theorem Invalidation.deed?_ne_saved {slot : σ} {p : Invalidation} {model : M} {header : Snapshot.Header}
    {blob : Bytes} : p.deed? c o slot ≠ some (.saved model header blob) := by
  unfold Invalidation.deed?
  split
  · split <;> simp
  · simp

/-- **The count.** A step leaves the count alone, or raises it to what has been found in the slot, or fills
the slot with the next generation. -/
theorem Turn.count {l : Machine.Label σ M} (turn : Turn c m m' l) (lanes : m.Lanes)
    (numbered : m.Numbered c) :
    m.count ≤ m'.count ∧ (∀ model header blob, m.deed? c l ≠ some (.saved model header blob)) ∨
      ∃ model header blob, m.deed? c l = some (.saved model header blob) ∧
        header.generation = m.count + 1 ∧ m'.count = header.generation := by
  have lanes' := lanes.turn turn
  have hleast {me : Actor} {o : Outside} (h : m.count ≤ m'.count)
      (hd : (m.activity me).deed? c o m.shared.slot = none ∨
        ∃ p, m.activity me = .invalidate p) :
      m.count ≤ m'.count ∧ ∀ model header blob, m.deed? c (.of me o) ≠ some (.saved model header blob) := by
    refine ⟨h, fun model header blob hsaved => ?_⟩
    rw [Machine.deed?_of] at hsaved
    rcases hd with hd | ⟨p, hp⟩
    · rw [hd] at hsaved
      cases hsaved
    · rw [hp] at hsaved
      exact Invalidation.deed?_ne_saved hsaved
  cases turn with
  | load me o p p' was now others step =>
    refine .inl (hleast ?_ (.inl (by rw [was]; rfl)))
    rcases Machine.count_of_load lanes lanes' was now others step with ⟨h, -⟩ | ⟨header, model, -, h⟩
    · exact UInt64.le_of_eq h.symm
    · rw [h]
      exact le_max_left_of_word ..
  | save me o p p' was now others step =>
    have hcount := Machine.count_of_save lanes lanes' was now others
    cases Save.counting step with
    | still count seeded isSeeding isSeeding' deed slot =>
      have h := Machine.count_of_still lanes lanes' was now others count
      exact .inl (hleast (UInt64.le_of_eq h.symm) (.inl (by rw [was]; exact deed)))
    | seed model fresh eq =>
      obtain ⟨h, h'⟩ := hcount rfl
      refine .inl (hleast (UInt64.le_of_eq ?_) (.inl (by rw [was]; rfl)))
      rw [h, h', eq]
      rfl
    | receive model found eq =>
      obtain ⟨h, h'⟩ := hcount rfl
      refine .inl (hleast ?_ (.inl (by rw [was]; rfl)))
      rw [h, h', eq]
      cases generation? (o.outcome found) with
      | none => exact UInt64.le_refl _
      | some g => exact le_max_left_of_word ..
    | write model header blob done eq =>
      obtain ⟨h, h'⟩ := hcount rfl
      have hd : m.deed? c (.of me o) = some (.saved model header blob) := by
        rw [Machine.deed?_of, was]
        simp only [Activity.deed?, Save.deed?, done]
      exact .inr ⟨model, header, blob, hd, by rw [h]; exact (numbered me _ was).2.1, h'⟩
  | invalidate me o p p' was now others step =>
    have h := Machine.count_of_invalidate lanes lanes' was now others step
    exact .inl (hleast (UInt64.le_of_eq h.symm) (.inr ⟨p, was⟩))
  | begin i call last was eq =>
    subst eq
    refine .inl ⟨UInt64.le_of_eq (Eq.symm ?_), fun _ _ _ hd => by cases hd⟩
    obtain ⟨was, now⟩ := m.isAtEdge_begin was call
    exact Machine.count_of_edge lanes lanes' was now (fun a ha => Machine.activity_move_of_ne m _ _ ha) rfl
  | edge me o was others core aside =>
    have h := Machine.count_of_edge lanes lanes' was aside.isAtEdge others core.generation
    exact .inl (hleast (UInt64.le_of_eq h.symm) (.inl (Activity.deed?_of_isAtEdge was)))
  | host holder same shared_eq | stranger slot same shared_eq =>
    refine .inl ⟨UInt64.le_of_eq (Eq.symm ?_), fun _ _ _ hd => by cases hd⟩
    rw [Machine.count, Machine.count, same, shared_eq]

/-! ### Whole runs -/

/-- The generation of a save. -/
def Deed.generation? : Deed M → Option UInt64
  | .saved _ h _ => some h.generation
  | .removed => none

/-- The generations of the saves among some deeds. -/
def generations (deeds : List (Deed M)) : List UInt64 := deeds.filterMap Deed.generation?

theorem generations_append (ds es : List (Deed M)) :
    generations (ds ++ es) = generations ds ++ generations es := List.filterMap_append

/-- The generations of the saves rise, up to the count. -/
structure Chronicle.Rising (c : Setup σ M) (w : Chronicle σ M) : Prop where
  lanes : w.machine.Lanes
  numbered : w.machine.Numbered c
  rises : (generations w.deeds).Pairwise (· < ·)
  bounded : ∀ g ∈ generations w.deeds, g ≤ w.machine.count

theorem Chronicle.rising_start (slot : σ) (holder : Holder M) (reports : Reports) :
    Chronicle.Rising c ⟨.start slot holder reports, []⟩ where
  lanes := Machine.lanes_start slot holder reports
  numbered := Machine.numbered_start slot holder reports
  rises := .nil
  bounded _ h := by cases h

/-- A deed that is no save has no generation. -/
theorem generations_of_ne_saved {d : Option (Deed M)}
    (h : ∀ model header blob, d ≠ some (.saved model header blob)) : generations d.toList = [] := by
  rcases d with _ | ⟨model, header, blob⟩ | _
  · rfl
  · exact absurd rfl (h model header blob)
  · rfl

/-- What a step adds to the generations: nothing, or one that is next to the count. -/
theorem Chronicle.generations_of_step {w v : Chronicle σ M} {l : Machine.Label σ M}
    (lanes : w.machine.Lanes) (numbered : w.machine.Numbered c) (hstep : w.step c l = some v) :
    generations v.deeds = generations w.deeds ∧ w.machine.count ≤ v.machine.count ∨
      generations v.deeds = generations w.deeds ++ [w.machine.count + 1] ∧
        v.machine.count = w.machine.count + 1 := by
  obtain ⟨m, hm, rfl⟩ := Option.map_eq_some_iff.mp hstep
  simp only [generations_append]
  rcases (turn_of_step hm).count lanes numbered with ⟨hle, hnone⟩ | ⟨model, header, blob, hd, hnext, hcount⟩
  · exact .inl ⟨by rw [generations_of_ne_saved hnone, List.append_nil], hle⟩
  · refine .inr ⟨?_, by rw [hcount, hnext]⟩
    rw [hd, ← hnext]
    rfl

/-- **Every step keeps it**, as long as the count does not begin again at zero. -/
theorem Chronicle.Rising.step {w v : Chronicle σ M} {l : Machine.Label σ M} (h : w.Rising c)
    (hstep : w.step c l = some v) (hroom : ∀ g ∈ generations v.deeds, g ≠ 0) : v.Rising c := by
  obtain ⟨m, hm, hv⟩ := Option.map_eq_some_iff.mp hstep
  have turn := turn_of_step hm
  have hlanes : v.machine.Lanes := by rw [← hv]; exact h.lanes.turn turn
  have hnumbered : v.machine.Numbered c := by rw [← hv]; exact h.numbered.turn h.lanes turn
  rcases Chronicle.generations_of_step h.lanes h.numbered hstep with ⟨hsame, hle⟩ | ⟨hnew, hcount⟩
  · refine ⟨hlanes, hnumbered, by rw [hsame]; exact h.rises, fun g hg => ?_⟩
    rw [hsame] at hg
    exact UInt64.le_trans (h.bounded g hg) hle
  · have hlt : w.machine.count < w.machine.count + 1 := by
      have := hroom (w.machine.count + 1) (by rw [hnew]; simp)
      grind
    refine ⟨hlanes, hnumbered, ?_, fun g hg => ?_⟩
    · rw [hnew, List.pairwise_append]
      refine ⟨h.rises, List.pairwise_singleton _ _, fun g hg g' hg' => ?_⟩
      rw [List.mem_singleton.mp hg']
      exact UInt64.lt_of_le_of_lt (h.bounded g hg) hlt
    · rw [hnew] at hg
      rw [hcount]
      rcases List.mem_append.mp hg with hg | hg
      · exact UInt64.le_of_lt (UInt64.lt_of_le_of_lt (h.bounded g hg) hlt)
      · exact UInt64.le_of_eq (List.mem_singleton.mp hg)

/-- Deeds are never taken back. -/
theorem Chronicle.generations_subset_of_step {w v : Chronicle σ M} {l : Machine.Label σ M}
    (hstep : w.step c l = some v) {g : UInt64} (hg : g ∈ generations w.deeds) :
    g ∈ generations v.deeds := by
  obtain ⟨m, -, rfl⟩ := Option.map_eq_some_iff.mp hstep
  rw [generations_append]
  exact List.mem_append_left _ hg

/-- In every state that can be reached the generations rise, unless the count has begun again at zero. -/
theorem Chronicle.rising_of_reachable {slot : σ} {holder : Holder M} {reports : Reports}
    {w : Chronicle σ M} (h : Reachable (Chronicle.step c) ⟨.start slot holder reports, []⟩ w)
    (hroom : ∀ g ∈ generations w.deeds, g ≠ 0) : w.Rising c := by
  refine h.induction (P := fun w => (∀ g ∈ generations w.deeds, g ≠ 0) → w.Rising c)
    (fun _ => Chronicle.rising_start slot holder reports) (fun w l v hw hstep hv => ?_) hroom
  exact (hw fun g hg => hv g (Chronicle.generations_subset_of_step hstep hg)).step hstep hv

end Steps

end SnapStore.Cache
