import SnapStore.Proofs.Cache.FirstSave
import SnapStore.Proofs.Cache.LastSave
import SnapStore.Proofs.Cache.LoneLoad
import SnapStore.Proofs.Slot.FailedWrite

namespace SnapStore.Cache

/-!
# Saves that fail

A save fails if its blob cannot be made, or cannot be put into the slot.  By then it may have noted that the
generation of the blob in the slot is known, and what it is; all that is left of it otherwise is that
somebody counts the failure, and reports it if it is the writer.

* `Save.failure?` is the failure of a step, `Save.cause_of_failure?` says where it comes from;
  `Save.verdict?` is the answer of a save, once it is settled.
* `Saves` — a thread gets from one place of a save to another one, while others do what they like.
* `Shared.SparesAllButCount` — nothing changes but who holds the write lane and what is known of the
  generation; `Shared.CountsNothingNew` — the count goes no farther than the blob in the slot.
* `failed_save_leaves_all_but_count` puts it together, for a slot that keeps its blob when a write fails.
-/

variable {σ M : Type} {c : Setup σ M} {m m' w : Machine σ M} {me : Actor} {o : Outside} {s s' : Shared σ M}
  {e : CacheError}

/-! ### The answer of a save -/

/-- The answer of a save, once it is settled. -/
def Save.verdict? : Save M → Option (Except CacheError (Option SaveReport))
  | .commit _ r | .publish _ r | .record r => some (.ok (some r))
  | .leave result | .done result => some result
  | _ => none

/-- What the next step of a save fails with: the blob cannot be made, or cannot be put into the slot. -/
def Save.failure? (c : Setup σ M) (o : Outside) (s : Shared σ M) : Save M → Option CacheError
  | .encode model =>
    let h : Snapshot.Header :=
      { modelVersion := c.modelVersion, generation := s.generation + 1, savedAt := o.unixTime }
    match o.compressed (Snapshot.encode c.codec h model c.level) with
    | .ok _ => none
    | .error e => some e
  | .write _ _ blob =>
    match (o.change (c.slot.write blob) s.slot).1 with
    | .ok _ => none
    | .error e => some e
  | _ => none

section Step

variable {p p' : Save M}

/-- A settled answer stays. -/
theorem Save.verdict?_of_step (h : p.step c me o s = some (p', s'))
    {result : Except CacheError (Option SaveReport)} (hp : p.verdict? = some result) :
    p'.verdict? = some result := by
  cases p with
  | enter | capture | seed | receive | encode | write => cases hp
  | commit | publish | record | leave =>
    cases h
    exact hp
  | done result => cases h

/-- **Where a failure comes from.** A step settles that a save has failed exactly if it fails itself. -/
theorem Save.verdict?_eq_error_iff (h : p.step c me o s = some (p', s')) :
    p'.verdict? = some (.error e) ↔ p.verdict? = some (.error e) ∨ p.failure? c o s = some e := by
  cases p with
  | enter | capture | seed | receive =>
    simp only [Save.step] at h
    split at h <;> cases h <;> simp [verdict?, failure?]
  | encode model =>
    simp only [Save.step] at h
    split at h <;> rename_i hblob <;> cases h <;> simp [verdict?, failure?, hblob]
  | write model header blob =>
    simp only [Save.step] at h
    split at h <;> rename_i hchange <;> cases h <;> simp [verdict?, failure?, hchange]
  | commit | publish | record | leave =>
    cases h
    simp [verdict?, failure?]
  | done result => cases h

/-- **The causes of a failure.** The model has no binary form, the compressor fails, or the slot does not
take the blob. -/
theorem Save.cause_of_failure? (hp : p.failure? c o s = some e) :
    (∃ model f, p = .encode model ∧ c.codec.encode model = .error f ∧ e = .serialization (.model f)) ∨
      (∃ model task text, p = .encode model ∧ o.compressorFault = some (task, text) ∧
        e = .serialization (.compressor task text)) ∨
      ∃ model h blob, p = .write model h blob ∧ (o.change (c.slot.write blob) s.slot).1 = .error e := by
  cases p with
  | encode model =>
    simp only [failure?] at hp
    split at hp <;> rename_i hblob <;> cases hp
    -- what the model comes to without the compressor
    have hform (r : Snapshot.Header) (hr : Snapshot.encode c.codec r model c.level = .error e) :
        ∃ f, c.codec.encode model = .error f ∧ e = .serialization (.model f) := by
      simp only [Snapshot.encode] at hr
      split at hr <;> rename_i hbody <;> cases hr
      exact ⟨_, hbody, rfl⟩
    unfold Outside.compressed at hblob
    split at hblob
    · obtain ⟨f, hf, he⟩ := hform _ hblob
      exact .inl ⟨model, f, rfl, hf, he⟩
    · rename_i hencode
      cases hblob
      obtain ⟨f, hf, he⟩ := hform _ hencode
      exact .inl ⟨model, f, rfl, hf, he⟩
    · rename_i task text hfault _
      cases hblob
      exact .inr (.inl ⟨model, task, text, rfl, hfault, rfl⟩)
  | write model header blob =>
    simp only [failure?] at hp
    split at hp <;> rename_i hchange <;> cases hp
    exact .inr (.inr ⟨model, header, blob, rfl, hchange⟩)
  | _ => cases hp

/-- A save whose step fails turns to releasing the lane. -/
theorem Save.step_of_failure? (hp : p.failure? c o s = some e) :
    ∃ s', p.step c me o s = some (.leave (.error e), s') := by
  cases p with
  | encode model =>
    simp only [failure?] at hp
    split at hp <;> rename_i hblob <;> cases hp
    exact ⟨s, by simp only [Save.step, hblob]⟩
  | write model header blob =>
    simp only [failure?] at hp
    split at hp <;> rename_i hchange <;> cases hp
    refine ⟨{ s with slot := (o.change (c.slot.write blob) s.slot).2 }, ?_⟩
    have hpair : o.change (c.slot.write blob) s.slot =
        (.error e, (o.change (c.slot.write blob) s.slot).2) := by
      rw [← hchange]
    simp only [Save.step]
    rw [hpair]
  | _ => cases hp

end Step

/-! ### What a step of it changes -/

/-- The blob in the slot is the same, and so is everything but who holds the write lane and what is known of
the generation. -/
structure Shared.SparesAllButCount (c : Setup σ M) (s s' : Shared σ M) : Prop where
  blob : c.slot.blob? s'.slot = c.slot.blob? s.slot
  rest : s' = { s with
    slot := s'.slot, writeLane := s'.writeLane, generation := s'.generation, seeded := s'.seeded }

/-- No generation is used up: the count is the same, or the one of the blob in the slot if that is higher. -/
def Shared.CountsNothingNew (c : Setup σ M) (s s' : Shared σ M) : Prop :=
  s'.generation = s.generation ∨
    ∃ g, generation? (c.slot.read s.slot) = some g ∧ s'.generation = max s.generation g

/-- The generation is the one of the blob. -/
theorem generation?_congr {found found' : Except CacheError (Option Bytes)}
    (h : found'.toOption.join = found.toOption.join) : generation? found' = generation? found := by
  have hjoin (x : Except CacheError (Option Bytes)) :
      generation? x = x.toOption.join.bind fun b => generation? (.ok (some b)) := by
    rcases x with e | _ | b <;> rfl
  rw [hjoin found', hjoin found, h]

namespace Shared

variable {s'' : Shared σ M}

theorem SparesAllButCount.refl (s : Shared σ M) : s.SparesAllButCount c s := ⟨rfl, rfl⟩

theorem SparesAllButCount.trans (h : s.SparesAllButCount c s') (h' : s'.SparesAllButCount c s'') :
    s.SparesAllButCount c s'' where
  blob := h'.blob.trans h.blob
  rest := by rw [h'.rest, h.rest]

private theorem le_max_right_of_word (a b : UInt64) : b ≤ max a b := by
  rw [show max a b = if a ≤ b then b else a from rfl]
  split <;> grind

/-- The blob in the slot is taken into account once. -/
theorem CountsNothingNew.trans (h : s.CountsNothingNew c s') (h' : s'.CountsNothingNew c s'')
    (hblob : c.slot.blob? s'.slot = c.slot.blob? s.slot) : s.CountsNothingNew c s'' := by
  rcases h' with hsame' | ⟨g, hg, hmax⟩
  · rw [CountsNothingNew, hsame']
    exact h
  · rw [generation?_congr hblob] at hg
    refine .inr ⟨g, hg, ?_⟩
    rcases h with hsame | ⟨g', hg', hmax'⟩
    · rw [hmax, hsame]
    · rw [hg, Option.some.injEq] at hg'
      subst hg'
      rw [hmax, hmax', max_eq_left_of_word (le_max_right_of_word s.generation g)]

end Shared

section Step

variable {p p' : Save M}

/-- A step of a save that has not gone well spares all but the count. -/
theorem Save.sparesAllButCount (hwrite : c.slot.SparesBlob s.slot) (h : p.step c me o s = some (p', s'))
    (hp' : ∀ r, p'.verdict? ≠ some (.ok (some r))) : s.SparesAllButCount c s' := by
  cases p with
  | enter | capture | seed | receive | encode =>
    simp only [Save.step] at h
    split at h <;> cases h <;> exact ⟨rfl, rfl⟩
  | write model header blob =>
    simp only [Save.step] at h
    split at h <;> rename_i hchange <;> cases h
    · exact absurd rfl (hp' _)
    · refine ⟨?_, rfl⟩
      rcases Outside.change_error hchange with hfailed | hkept
      · exact hwrite _ _ _ hfailed
      · rw [hkept]
  | commit | publish | record =>
    cases h
    exact absurd rfl (hp' _)
  | leave result =>
    cases h
    exact ⟨rfl, rfl⟩
  | done result => cases h

/-- What a save has read is what the slot holds. -/
def Save.HasRead (c : Setup σ M) (slot : σ) : Save M → Prop
  | .receive _ found => found = c.slot.read slot
  | _ => True

theorem Save.hasRead_of_step (h : p.step c me o s = some (p', s')) : p'.HasRead c s'.slot := by
  cases p with
  | enter | capture | seed | receive | encode | write =>
    simp only [Save.step] at h
    split at h <;> cases h <;> trivial
  | commit | publish | record | leave =>
    cases h
    trivial
  | done result => cases h

/-- A step of a save that has not gone well uses up no generation. -/
theorem Save.countsNothingNew (h : p.step c me o s = some (p', s'))
    (hp' : ∀ r, p'.verdict? ≠ some (.ok (some r))) (hread : p.HasRead c s.slot) :
    s.CountsNothingNew c s' := by
  cases p with
  | enter | capture | seed | encode | write =>
    simp only [Save.step] at h
    split at h <;> cases h <;> exact .inl rfl
  | receive model found =>
    simp only [Save.step] at h
    split at h <;> rename_i hfound <;> cases h
    · refine .inr ⟨_, ?_, rfl⟩
      rw [← hread]
      -- what has come of reading is what was read, or nothing
      unfold Outside.outcome at hfound
      split at hfound
      · cases hfound
      · exact hfound
    · exact .inl rfl
  | commit | publish | record =>
    cases h
    exact absurd rfl (hp' _)
  | leave result =>
    cases h
    exact .inl rfl
  | done result => cases h

end Step

/-- An invalidation only touches the slot with the write lane in hand. -/
theorem Invalidation.slot_eq {p p' : Invalidation} (h : p.step c me o s = some (p', s'))
    (hp : p.holdsWrite = false) : s'.slot = s.slot := by
  cases p with
  | cancel =>
    cases h
    rfl
  | enterLoad | enterWrite =>
    simp only [Invalidation.step] at h
    split at h <;> cases h
    rfl
  | done result => cases h
  | _ => cases hp

/-! ### A save of one thread -/

/-- Whether a thread is making a save. -/
def Activity.isSaving : Activity M → Bool
  | .save _ => true
  | _ => false

/-- A thread gets from one place of a save to another one, while others do what they like. -/
structure Saves (c : Setup σ M) (me : Actor) (p q : Save M) (m : Machine σ M) (ls : List (Machine.Label σ M))
    (w : Machine σ M) : Prop where
  begins : m.activity me = .save p
  runs : run (Machine.step c) m ls = some w
  saves : Along (Machine.step c) (fun u _ => (u.activity me).isSaving = true) m ls
  ends : w.activity me = .save q

section Turns

variable {l : Machine.Label σ M} {p p' : Save M}

/-- A thread that goes on with its save takes its next step, or leaves the step to somebody else. -/
theorem Turn.of_saving (turn : Turn c m m' l) (was : m.activity me = .save p)
    (now : m'.activity me = .save p') :
    (∃ o, l = .of me o ∧ p.step c me o m.shared = some (p', m'.shared)) ∨
      (∀ o, l ≠ .of me o) ∧ p' = p := by
  have hother {a : Actor} {o : Outside} (ha : a ≠ me)
      (others : ∀ b, b ≠ a → m'.activity b = m.activity b) :
      (∀ o', (Machine.Label.of a o : Machine.Label σ M) ≠ .of me o') ∧ p' = p := by
    refine ⟨fun o' h => ha (Machine.Label.of_inj h), ?_⟩
    rw [others me (Ne.symm ha), was] at now
    cases now
    rfl
  cases turn with
  | load a o q q' wasLoading now' others step =>
    refine .inr (hother ?_ others)
    rintro rfl
    rw [was] at wasLoading
    cases wasLoading
  | save a o q q' wasSaving now' others step =>
    by_cases ha : a = me
    · subst ha
      rw [was] at wasSaving
      rw [now] at now'
      cases wasSaving
      cases now'
      exact .inl ⟨o, rfl, step⟩
    · exact .inr (hother ha others)
  | invalidate a o q q' wasInvalidating now' others step =>
    refine .inr (hother ?_ others)
    rintro rfl
    rw [was] at wasInvalidating
    cases wasInvalidating
  | begin i call last wasOutside eq =>
    refine .inr ⟨fun o h => (by cases me <;> cases h), ?_⟩
    subst eq
    by_cases ha : me = .caller i
    · subst ha
      simp only [Machine.activity, wasOutside] at was
      cases was
    · rw [Machine.activity_move_of_ne m _ _ ha, was] at now
      cases now
      rfl
  | edge a o wasAtEdge others core aside =>
    refine .inr (hother ?_ others)
    rintro rfl
    -- whoever goes aside does not go on with a save
    cases aside with
    | still _ _ signal rest | request _ _ _ _ signal rest | close _ _ _ signal rest
    | finish _ _ _ signal rest =>
      rw [rest] at now
      cases now
    | decide o d ready =>
      simp only [Machine.activity, ready] at was
      cases was
  | host h same shared_eq | stranger slot same shared_eq =>
    refine .inr ⟨fun o h => (by cases me <;> cases h), ?_⟩
    rw [same, was] at now
    cases now
    rfl

/-- While a thread has the write lane in hand, nobody else touches the slot, strangers excepted. -/
theorem Turn.slot_eq_of_held (turn : Turn c m m' l) (lanes : m.Lanes)
    (hme : (m.activity me).holdsWrite = true)
    (hl : ∀ o, l ≠ .of me o) (hstranger : ∀ slot, l ≠ .stranger slot) :
    m'.shared.slot = m.shared.slot := by
  have hfree {a : Actor} {o : Outside} (hla : l = .of a o) : (m.activity a).holdsWrite = false := by
    by_contra hholds
    refine hl o ?_
    rw [hla, lanes.write.unique (Bool.of_not_eq_false hholds) hme]
  cases turn with
  | load a o q q' was now others step => exact Load.slot_eq step
  | save a o q q' was now others step =>
    have hq := hfree rfl
    rw [was] at hq
    rcases Save.touch step with ⟨hslot, -⟩ | ⟨_, _, _, rfl, -⟩
    · exact hslot
    · cases hq
  | invalidate a o q q' was now others step =>
    have hq := hfree rfl
    rw [was] at hq
    exact Invalidation.slot_eq step hq
  | begin i call last was eq =>
    subst eq
    rfl
  | edge a o was others core aside => exact core.slot
  | host h same shared_eq => rw [shared_eq]
  | stranger slot same shared_eq => exact absurd rfl (hstranger slot)

end Turns

section Runs

variable {l : Machine.Label σ M} {ls : List (Machine.Label σ M)} {p q : Save M}

theorem Saves.eq_of_nil (h : Saves c me p q m [] w) : p = q := by
  cases h.runs
  exact Activity.save.inj (h.begins.symm.trans h.ends)

/-- The first step on the way of a save is its own next step, or one of somebody else. -/
theorem Saves.uncons (h : Saves c me p q m (l :: ls) w) :
    ∃ u p', m.step c l = some u ∧ Saves c me p' q u ls w ∧
      ((∃ o, l = .of me o ∧ p.step c me o m.shared = some (p', u.shared)) ∨
        (∀ o, l ≠ .of me o) ∧ p' = p) := by
  obtain ⟨begins, runs, saves, ends⟩ := h
  rw [run_cons, Option.bind_eq_some_iff] at runs
  obtain ⟨u, hu, hrest⟩ := runs
  have hsaves := saves.2 u hu
  have hsaving : (u.activity me).isSaving = true := by
    cases ls with
    | nil =>
      cases hrest
      rw [ends]
      rfl
    | cons k ks => exact hsaves.1
  obtain ⟨p', hp'⟩ : ∃ p', u.activity me = .save p' := by
    cases ha : u.activity me with
    | save p' => exact ⟨p', rfl⟩
    | _ =>
      rw [ha] at hsaving
      cases hsaving
  exact ⟨u, p', hu, ⟨hp', hrest, hsaves, ends⟩, (turn_of_step hu).of_saving begins hp'⟩

/-- A settled answer stays to the end. -/
theorem Saves.verdict?_eq (h : Saves c me p q m ls w) {result : Except CacheError (Option SaveReport)}
    (hp : p.verdict? = some result) : q.verdict? = some result := by
  induction ls generalizing m p with
  | nil => rw [← h.eq_of_nil, hp]
  | cons l ls ih =>
    obtain ⟨u, p', -, hrest, ⟨o, -, hstep⟩ | ⟨-, rfl⟩⟩ := h.uncons
    · exact ih hrest (Save.verdict?_of_step hstep hp)
    · exact ih hrest hp

/-- On the way to a failure nothing goes well. -/
theorem Saves.verdict?_ne (h : Saves c me p (.done (.error e)) m ls w) (r : SaveReport) :
    p.verdict? ≠ some (.ok (some r)) := by
  intro hp
  have hend := h.verdict?_eq hp
  cases hend

/-- **Where a failure comes from.** A save that has failed in the end fails at one of its steps. -/
theorem Saves.exists_failure (h : Saves c me p (.done (.error e)) m ls w) (hp : p.verdict? = none) :
    ∃ before o after u q, ls = before ++ .of me o :: after ∧ run (Machine.step c) m before = some u ∧
      u.activity me = .save q ∧ q.failure? c o u.shared = some e := by
  induction ls generalizing m p with
  | nil =>
    rw [h.eq_of_nil] at hp
    cases hp
  | cons l ls ih =>
    obtain ⟨u, p', hu, hrest, hcase⟩ := h.uncons
    have hlater (hp' : p'.verdict? = none) : ∃ before o after u q, l :: ls = before ++ .of me o :: after ∧
        run (Machine.step c) m before = some u ∧ u.activity me = .save q ∧
          q.failure? c o u.shared = some e := by
      obtain ⟨before, o, after, v, q, rfl, hv, hq, hfails⟩ := ih hrest hp'
      exact ⟨l :: before, o, after, v, q, rfl, by rw [run_cons, hu, Option.bind_some, hv], hq, hfails⟩
    rcases hcase with ⟨o, rfl, hstep⟩ | ⟨-, rfl⟩
    · cases hp' : p'.verdict? with
      | none => exact hlater hp'
      | some result =>
        -- what is settled now is what comes of it in the end
        have hend := hrest.verdict?_eq hp'
        cases hend
        have hfails := ((Save.verdict?_eq_error_iff hstep).mp hp').resolve_left (by rw [hp]; simp)
        exact ⟨[], o, ls, m, p, rfl, rfl, h.begins, hfails⟩
    · exact hlater hp

/-- A step of a thread spares all but the count. -/
def Machine.SparesAllButCount (c : Setup σ M) (me : Actor) (m : Machine σ M) (l : Label σ M) : Prop :=
  ∀ o m', l = .of me o → m.step c l = some m' → m.shared.SparesAllButCount c m'.shared

/-- A step of a thread uses up no generation. -/
def Machine.CountsNothingNew (c : Setup σ M) (me : Actor) (m : Machine σ M) (l : Label σ M) : Prop :=
  ∀ o m', l = .of me o → m.step c l = some m' → m.shared.CountsNothingNew c m'.shared

/-- **What a failure leaves.** If a save fails in the end, then all its steps spare all but the count. -/
theorem Saves.sparesAllButCount
    (hwrite : Along (Machine.step c) (fun u _ => c.slot.SparesBlob u.shared.slot) m ls)
    (h : Saves c me p (.done (.error e)) m ls w) :
    Along (Machine.step c) (Machine.SparesAllButCount c me) m ls := by
  induction ls generalizing m p with
  | nil => trivial
  | cons l ls ih =>
    obtain ⟨u, p', hu, hrest, hcase⟩ := h.uncons
    refine along_cons ?_ hu (ih (hwrite.2 u hu) hrest)
    rintro o v hl hv
    rw [hu, Option.some.injEq] at hv
    subst hv
    rcases hcase with ⟨o', -, hstep⟩ | ⟨hother, -⟩
    · exact Save.sparesAllButCount hwrite.1 hstep hrest.verdict?_ne
    · exact absurd hl (hother o)

/-- **No generation is used up** by the steps of a save that fails in the end, unless a stranger changes the
slot under its hands. -/
theorem Saves.countsNothingNew (h : Saves c me p (.done (.error e)) m ls w) (lanes : m.Lanes)
    (hread : p.HasRead c m.shared.slot) (hls : ∀ l ∈ ls, ∀ slot, l ≠ .stranger slot) :
    Along (Machine.step c) (Machine.CountsNothingNew c me) m ls := by
  induction ls generalizing m p with
  | nil => trivial
  | cons l ls ih =>
    obtain ⟨u, p', hu, hrest, hcase⟩ := h.uncons
    have hls' : ∀ k ∈ ls, ∀ slot, k ≠ .stranger slot := fun k hk => hls k (List.mem_cons_of_mem l hk)
    have hread' : p'.HasRead c u.shared.slot := by
      rcases hcase with ⟨o, -, hstep⟩ | ⟨hother, rfl⟩
      · exact Save.hasRead_of_step hstep
      · cases p' with
        | receive model found =>
          -- the lane is in its hands, so that the slot is still what it was
          have hslot := (turn_of_step hu).slot_eq_of_held lanes (by rw [h.begins]; rfl) hother
            (hls l List.mem_cons_self)
          rw [hslot]
          exact hread
        | _ => trivial
    refine along_cons ?_ hu (ih hrest (lanes.turn (turn_of_step hu)) hread' hls')
    rintro o v hl hv
    rw [hu, Option.some.injEq] at hv
    subst hv
    rcases hcase with ⟨o', -, hstep⟩ | ⟨hother, -⟩
    · exact Save.countsNothingNew hstep hrest.verdict?_ne hread
    · exact absurd hl (hother o)

/-- A thread that nobody disturbs leaves it to the others what they are doing. -/
theorem activity_of_alone (hrun : run (Machine.step c) m ls = some w) (hls : ∀ l ∈ ls, ∃ o, l = .of me o)
    {a : Actor} (ha : a ≠ me) : w.activity a = m.activity a := by
  refine run_induction (P := fun u => u.activity a = m.activity a) hrun hls rfl ?_
  rintro u l v hu ⟨o, rfl⟩ hv
  rw [(turn_of_step hv).others ha, hu]

/-- A lane is with the same thread as long as the same threads have it in hand. -/
theorem Machine.Lanes.writeLane_eq (lanes : m.Lanes) (lanes' : w.Lanes)
    (h : ∀ a, (w.activity a).holdsWrite = (m.activity a).holdsWrite) :
    w.shared.writeLane = m.shared.writeLane := by
  refine Option.ext fun a => ?_
  rw [lanes'.write a, lanes.write a]
  simp only [h a]

/-- What the steps of a thread come to that nobody disturbs. -/
theorem net_of_alone (hrun : run (Machine.step c) m ls = some w) (hls : ∀ l ∈ ls, ∃ o, l = .of me o)
    (hspares : Along (Machine.step c) (Machine.SparesAllButCount c me) m ls)
    (hcounts : Along (Machine.step c) (Machine.CountsNothingNew c me) m ls) :
    m.shared.SparesAllButCount c w.shared ∧ m.shared.CountsNothingNew c w.shared := by
  induction ls generalizing m with
  | nil =>
    cases hrun
    exact ⟨.refl _, .inl rfl⟩
  | cons l ls ih =>
    rw [run_cons, Option.bind_eq_some_iff] at hrun
    obtain ⟨u, hu, hrest⟩ := hrun
    obtain ⟨o, ho⟩ := hls l List.mem_cons_self
    have hfirst := hspares.1 o u ho hu
    obtain ⟨hs, hc⟩ :=
      ih hrest (fun k hk => hls k (List.mem_cons_of_mem l hk)) (hspares.2 u hu) (hcounts.2 u hu)
    exact ⟨hfirst.trans hs, (hcounts.1 o u ho hu).trans hc hfirst.blob⟩

/-- **What a failure leaves that nobody disturbs** is all but the count, the write lane included. -/
theorem Saves.of_alone
    (hwrite : Along (Machine.step c) (fun u _ => c.slot.SparesBlob u.shared.slot) m ls)
    (h : Saves c me .enter (.done (.error e)) m ls w) (lanes : m.Lanes)
    (hls : ∀ l ∈ ls, ∃ o, l = .of me o) :
    m.shared.SparesAllButCount c w.shared ∧ m.shared.CountsNothingNew c w.shared ∧
      w.shared.writeLane = m.shared.writeLane := by
  have hstranger : ∀ l ∈ ls, ∀ slot, l ≠ .stranger slot := by
    rintro l hl slot rfl
    obtain ⟨o, ho⟩ := hls _ hl
    cases me <;> cases ho
  have hspares := h.sparesAllButCount hwrite
  have hcounts := h.countsNothingNew lanes trivial hstranger
  have lanes' : w.Lanes :=
    Reachable.induction ⟨ls, h.runs⟩ lanes fun _ _ _ hu hs => hu.turn (turn_of_step hs)
  obtain ⟨hnet, hcount⟩ := net_of_alone h.runs hls hspares hcounts
  refine ⟨hnet, hcount, lanes.writeLane_eq lanes' fun a => ?_⟩
  -- whoever has the lane in hand is somebody else, and stays where it is
  by_cases ha : a = me
  · rw [ha, h.begins, h.ends]
    rfl
  · rw [activity_of_alone h.runs hls ha]

end Runs

/-! ### A failed save -/

/-- A thread that has failed to save only has to say so: the failure is counted once, and reported once if
the thread is the writer. -/
def Machine.Accounts (c : Setup σ M) (m : Machine σ M) (e : CacheError) : Actor → Prop
  | .caller i => ∀ o, m.step c (.caller i o) =
      some (m.move i (.done (.saved (.error e))) { m.shared with stats := m.shared.stats.saveFailed })
  | .writer => ∃ d, (∀ o, m.step c (.writer o) = some { m with writer := .complaining d e }) ∧
      ∀ (u : Machine σ M) o, u.writer = .complaining d e → u.step c (.writer o) = some { u with
        writer := .finishing d
        shared := { u.shared with
          stats := u.shared.stats.saveFailed
          reports := u.shared.reports.add c.sink ⟨.writeFailed, c.slot.location, e.message⟩ } }

theorem Machine.accounts_of_activity (h : m.activity me = .save (.done (.error e))) : m.Accounts c e me := by
  cases me with
  | caller i =>
    intro o
    simp only [step, stepCaller, Caller.eq_saving_of_activity h]
  | writer =>
    cases hw : m.writer with
    | saving d p =>
      simp only [activity, hw, Writer.activity, Activity.save.injEq] at h
      subst h
      refine ⟨d, fun o => by simp only [step, stepWriter, hw], fun u o hu => ?_⟩
      simp only [step, stepWriter, hu]
      rfl
    | _ =>
      simp only [activity, hw] at h
      cases h

/-- A step of a save is a step of the thread that makes it. -/
theorem Machine.exists_step_of_saving {p p' : Save M} (was : m.activity me = .save p)
    (hstep : p.step c me o m.shared = some (p', s')) :
    ∃ m', m.step c (.of me o) = some m' ∧ m'.activity me = .save p' ∧ m'.shared = s' := by
  cases me with
  | caller i =>
    have hi := Caller.eq_saving_of_activity was
    refine ⟨m.move i (.saving p') s', ?_, Machine.activity_move_self .., rfl⟩
    cases p with
    | done result => cases hstep
    | _ =>
      simp only [Label.of, step, stepCaller, hi]
      rw [hstep, Option.map_some]
  | writer =>
    cases hw : m.writer with
    | saving d q =>
      simp only [activity, hw, Writer.activity, Activity.save.injEq] at was
      subst was
      refine ⟨{ m with writer := .saving d p', shared := s' }, ?_, rfl, rfl⟩
      cases q with
      | done result => cases hstep
      | _ =>
        simp only [Label.of, step, stepWriter, hw]
        rw [hstep, Option.map_some]
    | _ =>
      simp only [activity, hw] at was
      cases was

/-- **A save on its own** is on its way with every step that it takes. -/
theorem exists_saves_of_run {p q : Save M} {os : List Outside} (was : m.activity me = .save p)
    (h : run (Save.next c me) (p, m.shared) os = some (q, s)) :
    ∃ w, Saves c me p q m (os.map (.of me)) w ∧ w.shared = s := by
  induction os generalizing m p with
  | nil =>
    cases h
    exact ⟨m, ⟨was, rfl, trivial, was⟩, rfl⟩
  | cons o os ih =>
    rw [run_cons, Option.bind_eq_some_iff] at h
    obtain ⟨⟨p', s'⟩, hstep, hrest⟩ := h
    obtain ⟨m', hm', hplace, rfl⟩ := Machine.exists_step_of_saving was hstep
    obtain ⟨w, ⟨-, hruns, hsaves, hends⟩, hw⟩ := ih hplace hrest
    refine ⟨w, ⟨was, ?_, along_cons (by rw [was]; rfl) hm' hsaves, hends⟩, hw⟩
    rw [List.map_cons, run_cons, hm', Option.bind_some, hruns]

/-- **What a failed save leaves.** A thread, the writer or a caller, makes a save that comes out as an
error, and others do what they like meanwhile.  Then a step of the save has failed with that error, because
the blob could not be made or could not be put into the slot; and none of its steps has changed anything but
who holds the write lane and what is known of the generation.  Unless a stranger changes the slot meanwhile,
the generation becomes at most the one of the blob in the slot.  At last the failure is counted once, and
reported once if it is the writer's.  Conversely, whatever a step fails with is what the save comes out as,
and nothing keeps it from that.

If nobody else does anything, then everything is in the end what it was before, except for what is known of
the generation, and the next load returns what it would have returned. -/
theorem failed_save_leaves_all_but_count {slot : σ} {holder : Holder M} {reports : Reports}
    (hm : Reachable (Machine.step c) (.start slot holder reports) m) {ls : List (Machine.Label σ M)}
    (hwrite : Along (Machine.step c) (fun u _ => c.slot.SparesBlob u.shared.slot) m ls)
    (h : Saves c me .enter (.done (.error e)) m ls w) :
    (∃ before o after u p, ls = before ++ .of me o :: after ∧ run (Machine.step c) m before = some u ∧
      u.activity me = .save p ∧ p.failure? c o u.shared = some e) ∧
    Along (Machine.step c) (Machine.SparesAllButCount c me) m ls ∧
    ((∀ l ∈ ls, ∀ slot, l ≠ .stranger slot) →
      Along (Machine.step c) (Machine.CountsNothingNew c me) m ls) ∧
    w.Accounts c e me ∧
    (∀ (u : Machine σ M) o p e', u.activity me = .save p → p.failure? c o u.shared = some e' →
      ∃ u', u.step c (.of me o) = some u' ∧ u'.activity me = .save (.leave (.error e'))) ∧
    (∀ (u : Machine σ M) o r, u.activity me = .save (.leave r) →
      ∃ u', u.step c (.of me o) = some u' ∧ u'.activity me = .save (.done r)) ∧
    ((∀ l ∈ ls, ∃ o, l = .of me o) →
      w.shared = { m.shared with
        slot := w.shared.slot, generation := w.shared.generation, seeded := w.shared.seeded } ∧
      c.slot.blob? w.shared.slot = c.slot.blob? m.shared.slot ∧ m.shared.CountsNothingNew c w.shared ∧
      ∀ a o stats reports r, Load.ComesTo c a o .peek { w.shared with stats, reports } r ↔
        Load.ComesTo c a o .peek m.shared r) := by
  have lanes := Machine.lanes_of_reachable hm
  refine ⟨h.exists_failure rfl, h.sparesAllButCount hwrite, h.countsNothingNew lanes trivial,
    Machine.accounts_of_activity h.ends, fun u o p e' hu hp => ?_, fun u o r hu => ?_, fun hls => ?_⟩
  · obtain ⟨s', hstep⟩ : ∃ s', p.step c me o u.shared = some (.leave (.error e'), s') :=
      Save.step_of_failure? hp
    obtain ⟨u', hu', hplace, -⟩ := Machine.exists_step_of_saving hu hstep
    exact ⟨u', hu', hplace⟩
  · obtain ⟨u', hu', hplace, -⟩ := Machine.exists_step_of_saving (o := o) hu rfl
    exact ⟨u', hu', hplace⟩
  · obtain ⟨⟨hblob, hrest⟩, hcount, hlane⟩ := h.of_alone hwrite lanes hls
    have hshared : w.shared = { m.shared with
        slot := w.shared.slot, generation := w.shared.generation, seeded := w.shared.seeded } := by
      rw [hlane] at hrest
      exact hrest
    refine ⟨hshared, hblob, hcount, fun a o stats reports r => ?_⟩
    rw [Load.comesTo_peek_iff, Load.comesTo_peek_iff]
    -- what a load depends on is as it was
    refine Eq.congr_left (Load.result?_congr hblob ?_ ?_ ?_ ?_) <;> rw [hshared]

/-- A cache of texts that has just been opened, on a slot with a blob that cannot be replaced. -/
def refusingStart (old : Bytes) : Machine MemorySlot Value :=
  .start { blob := some old, failWrites := true } { current := some (.string "b") } {}

/-- The save of a caller that nobody disturbs, as far as its failure. -/
def refusedSave : List (Machine.Label MemorySlot Value) := List.replicate 7 (.caller 0 {})

/-- A save that takes the generation of the blob in the slot into account and then cannot replace it. -/
theorem failed_save_leaves_all_but_count_refused :
    ∃ old m w, Snapshot.readHeader old = .ok oldHeader ∧
      Machine.step textSetup (.call 0 .save) (refusingStart old) = some m ∧
      Saves textSetup (.caller 0) .enter (.done (.error MemorySlot.refusal)) m refusedSave w ∧
      w.shared.generation = 5 ∧ w.shared.seeded = true ∧
      w.shared = { m.shared with
        slot := w.shared.slot, generation := w.shared.generation, seeded := w.shared.seeded } ∧
      w.shared.slot.blob = some old ∧ w.Accounts textSetup MemorySlot.refusal (.caller 0) ∧
      ∀ o r, Load.ComesTo textSetup (.caller 1) o .peek w.shared r ↔
        Load.ComesTo textSetup (.caller 1) o .peek m.shared r := by
  obtain ⟨old, hblob⟩ := exists_oldBlob
  obtain ⟨m, hm, hbegins, hshared⟩ : ∃ m,
      Machine.step textSetup (.call 0 .save) (refusingStart old) = some m ∧
        m.activity (.caller 0) = .save .enter ∧ m.shared = (refusingStart old).shared := ⟨_, rfl, rfl, rfl⟩
  -- the blob in the slot is read, and its generation taken into account
  have hfound : Save.next textSetup (.caller 0) {} (.receive (.string "b") (.ok (some old)),
      { m.shared with writeLane := some (.caller 0), seeded := true }) = some (.encode (.string "b"),
        { m.shared with writeLane := some (.caller 0), seeded := true, generation := 5 }) := by
    simp only [Save.next, Save.step, Outside.outcome, generation?_of_encode rfl hblob, hshared]
    rfl
  have hrun : run (Save.next textSetup (.caller 0)) (.enter, m.shared) (List.replicate 7 {}) =
      some (.done (.error MemorySlot.refusal), { m.shared with seeded := true, generation := 5 }) := by
    have hread : run (Save.next textSetup (.caller 0)) (.enter, m.shared) (List.replicate 3 {}) =
        some (.receive (.string "b") (.ok (some old)),
          { m.shared with writeLane := some (.caller 0), seeded := true }) := by
      rw [hshared]
      rfl
    have hsteps (o : Outside) : List.replicate 7 o = List.replicate 3 o ++ o :: List.replicate 3 o := rfl
    rw [hsteps, run_append, hread, Option.bind_some, run_cons, hfound, hshared]
    rfl
  obtain ⟨w, hsaves, hw⟩ : ∃ w,
      Saves textSetup (.caller 0) .enter (.done (.error MemorySlot.refusal)) m refusedSave w ∧
        w.shared = { m.shared with seeded := true, generation := 5 } := exists_saves_of_run hbegins hrun
  obtain ⟨-, -, -, haccounts, -, -, halone⟩ :=
    failed_save_leaves_all_but_count (.snoc (.refl _) hm)
      (along_of_forall (fun u _ => MemorySlot.sparesBlob "memory" u.shared.slot) m refusedSave) hsaves
  obtain ⟨hrest, -, -, hload⟩ := halone fun l hl => ⟨{}, List.eq_of_mem_replicate hl⟩
  refine ⟨old, m, w, Snapshot.readHeader_encode hblob, hm, hsaves, by rw [hw], by rw [hw], hrest, ?_,
    haccounts, fun o r => hload (.caller 1) o w.shared.stats w.shared.reports r⟩
  rw [hw, hshared]
  rfl

end SnapStore.Cache
