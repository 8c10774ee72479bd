import SnapStore.Proofs.Cache.Generations

namespace SnapStore.Cache

/-!
# The first save

The first save of a cache looks for the generation of the blob that it replaces.  If the slot cannot be
read at this moment, the save goes on nevertheless, and no other one looks again.

* `Machine.Untouched` — as long as nothing has been done to the slot, the count is zero or the generation of
  the blob in it.
* `Chronicle.Dated` — later on, the blob in the slot is one of the saves.
* `generation_of_replaced` — so a save has a higher generation than the blob that it replaces, unless it is
  the first one.
* `generation_falls` — the first one need not have.
-/

variable {σ M : Type} {c : Setup σ M} {m m' : Machine σ M} {l : Machine.Label σ M}
  {content : σ → Option Bytes}

/-! ### What a step leaves in the slot -/

theorem exists_write_of_saved {model : M} {h : Snapshot.Header} {blob : Bytes}
    (hd : m.deed? c l = some (.saved model h blob)) :
    ∃ a o, l = .of a o ∧ m.activity a = .save (.write model h blob) := by
  have hwrite {a : Actor} {o : Outside}
      (ha : (m.activity a).deed? c o m.shared.slot = some (.saved model h blob)) :
      m.activity a = .save (.write model h blob) := by
    cases hact : m.activity a with
    | rest | load =>
      rw [hact] at ha
      cases ha
    | invalidate p =>
      rw [hact] at ha
      exact absurd ha Invalidation.deed?_ne_saved
    | save p =>
      rw [hact] at ha
      cases p with
      | write =>
        simp only [Activity.deed?, Save.deed?] at ha
        split at ha <;> cases ha
        rfl
      | _ => cases ha
  cases l with
  | caller i o => exact ⟨.caller i, o, rfl, hwrite hd⟩
  | writer o => exact ⟨.writer, o, rfl, hwrite hd⟩
  | _ => cases hd

/-- What the slot holds after a step is what the step has left there, if it has done something to it. -/
theorem Turn.content_eq_leftBy (turn : Turn c m m' l) (hslot : c.slot.Lawful content)
    (hl : ∀ slot, l ≠ .stranger slot) :
    content m'.shared.slot = leftBy (content m.shared.slot) (m.deed? c l).toList := by
  cases turn with
  | load me o p p' was now others step =>
    rw [Machine.deed?_of, was, (Load.effect hslot step).1]
    rfl
  | save me o p p' was now others step =>
    rw [Machine.deed?_of, was, show Activity.deed? c o m.shared.slot (.save p) = p.deed? c o m.shared.slot
      from rfl]
    cases Save.counting step with
    | still _ _ _ _ deed slot =>
      rw [deed]
      exact slot content hslot
    | seed _ _ eq | receive _ _ eq =>
      rw [eq]
      rfl
    | write model header blob done eq =>
      simp only [Save.deed?, done]
      exact content_of_write hslot done
  | invalidate me o p p' was now others step =>
    rw [Machine.deed?_of, was, show Activity.deed? c o m.shared.slot (.invalidate p) =
      p.deed? c o m.shared.slot from rfl]
    obtain ⟨-, ⟨hs, -, hd, -⟩ | ⟨hs, -, hd, -⟩ | ⟨hs, -, hd, -⟩⟩ := Invalidation.effect hslot step
    all_goals
      rw [hs, hd]
      rfl
  | begin i call last was eq =>
    rw [eq]
    rfl
  | edge me o was others core aside =>
    rw [Machine.deed?_of, Activity.deed?_of_isAtEdge was, core.slot]
    rfl
  | host holder same shared_eq =>
    rw [shared_eq]
    rfl
  | stranger slot same shared_eq => exact absurd rfl (hl slot)

/-! ### As long as nothing is done to the slot -/

/-- Nothing has been done to the slot, so that the only generation that is known of is the one of the blob in
it. -/
structure Machine.Untouched (content : σ → Option Bytes) (m : Machine σ M) : Prop where
  count : m.count = 0 ∨ generation? (.ok (content m.shared.slot)) = some m.count
  loads : ∀ a p g, m.activity a = .load p → p.readGeneration? = some g →
    generation? (.ok (content m.shared.slot)) = some g
  seeds : ∀ a model b, m.activity a = .save (.receive model (.ok b)) → b = content m.shared.slot

section Untouched

variable {me : Actor} {o : Outside}

/-- A step keeps the invariant if it counts nothing but the blob in the slot, and if the thread that takes it
has read nothing else. -/
theorem Machine.Untouched.keep (h : m.Untouched content)
    (slot : content m'.shared.slot = content m.shared.slot)
    (others : ∀ a, a ≠ me → m'.activity a = m.activity a)
    (count : m'.count = m.count ∨ ∃ g, generation? (.ok (content m.shared.slot)) = some g ∧
      m'.count = max m.count g)
    (loads : ∀ p g, m'.activity me = .load p → p.readGeneration? = some g →
      generation? (.ok (content m.shared.slot)) = some g)
    (seeds : ∀ model b, m'.activity me = .save (.receive model (.ok b)) → b = content m.shared.slot) :
    m'.Untouched content := by
  refine ⟨?_, fun a p g hp hg => ?_, fun a model b hp => ?_⟩ <;> rw [slot]
  · rcases count with hcount | ⟨g, hg, hcount⟩ <;> rw [hcount]
    · exact h.count
    · rcases h.count with hzero | hsome
      · rw [hzero, max_zero_of_word]
        exact .inr hg
      · rw [hg, Option.some.injEq] at hsome
        rw [← hsome, max_eq_left_of_word (UInt64.le_refl g)]
        exact .inr hg
  · by_cases ha : a = me
    · exact loads p g (by rw [← ha]; exact hp) hg
    · exact h.loads a p g (by rw [← others a ha]; exact hp) hg
  · by_cases ha : a = me
    · exact seeds model b (by rw [← ha]; exact hp)
    · exact h.seeds a model b (by rw [← others a ha]; exact hp)

/-- A thread outside the lanes has read nothing. -/
theorem Machine.Untouched.edge (h : m.Untouched content) (lanes : m.Lanes) (lanes' : m'.Lanes)
    (was : (m.activity me).isAtEdge = true) (now : (m'.activity me).isAtEdge = true)
    (others : ∀ a, a ≠ me → m'.activity a = m.activity a) (core : m.shared.SameCore m'.shared) :
    m'.Untouched content := by
  refine h.keep (by rw [core.slot]) others
    (.inl (Machine.count_of_edge lanes lanes' was now others core.generation)) (fun p g hp hg => ?_)
    fun model b hp => ?_
  · rw [hp] at now
    rw [Load.readGeneration?_of_isAtEdge now] at hg
    cases hg
  · rw [hp] at now
    cases now

/-- A load publishes nothing but the blob in the slot. -/
theorem Machine.Untouched.load (h : m.Untouched content) (lanes : m.Lanes) (lanes' : m'.Lanes)
    (hslot : c.slot.Lawful content) {p p' : Load M} (was : m.activity me = .load p)
    (now : m'.activity me = .load p') (others : ∀ a, a ≠ me → m'.activity a = m.activity a)
    (step : p.step c me o m.shared = some (p', m'.shared)) : m'.Untouched content := by
  refine h.keep (by rw [(Load.effect hslot step).1]) others ?_ (fun q g hq hg => ?_) fun model b hp => ?_
  · rcases Machine.count_of_load lanes lanes' was now others step with ⟨hcount, -⟩ |
      ⟨header, model, rfl, hcount⟩
    · exact .inl hcount
    · exact .inr ⟨header.generation, h.loads me _ _ was rfl, hcount⟩
  · rw [now, Activity.load.injEq] at hq
    rw [← hq] at hg
    exact (Load.readGeneration?_of_step hslot step hg).elim (h.loads me p g was) id
  · rw [now] at hp
    cases hp

/-- As long as a save does not fill the slot, it takes nothing but the blob in it into account. -/
theorem Machine.Untouched.count_of_save (h : m.Untouched content) (lanes : m.Lanes) (lanes' : m'.Lanes)
    {p p' : Save M} (was : m.activity me = .save p) (now : m'.activity me = .save p')
    (others : ∀ a, a ≠ me → m'.activity a = m.activity a) (hd : p.deed? c o m.shared.slot = none)
    (step : p.step c me o m.shared = some (p', m'.shared)) :
    m'.count = m.count ∨ ∃ g, generation? (.ok (content m.shared.slot)) = some g ∧
      m'.count = max m.count g := by
  have hcount := Machine.count_of_save lanes lanes' was now others
  cases Save.counting step with
  | still count => exact .inl (Machine.count_of_still lanes lanes' was now others count)
  | seed model fresh eq =>
    refine .inl ?_
    rw [(hcount rfl).1, (hcount rfl).2, eq]
    rfl
  | receive model found eq =>
    have hmax : m'.count = (generation? (o.outcome found)).elim m.count (max m.count) := by
      rw [(hcount rfl).1, (hcount rfl).2, eq]
      rfl
    cases hout : o.outcome found with
    | error e =>
      -- the save goes on as if the slot were empty
      rw [hout] at hmax
      exact .inl hmax
    | ok b =>
      rw [hout, h.seeds me model b (by rw [was, eq_of_outcome hout])] at hmax
      cases hg : generation? (.ok (content m.shared.slot)) with
      | none => exact .inl (by rw [hmax, hg]; rfl)
      | some g => exact .inr ⟨g, rfl, by rw [hmax, hg]; rfl⟩
  | write model header blob done eq =>
    simp only [Save.deed?, done] at hd
    cases hd

/-- **Every step keeps the invariant** that does nothing to the slot. -/
theorem Machine.Untouched.turn (h : m.Untouched content) (lanes : m.Lanes) (hslot : c.slot.Lawful content)
    (turn : Turn c m m' l) (hl : ∀ slot, l ≠ .stranger slot) (hd : m.deed? c l = none) :
    m'.Untouched content := by
  have lanes' := lanes.turn turn
  have hs : content m'.shared.slot = content m.shared.slot := by
    rw [turn.content_eq_leftBy hslot hl, hd]
    rfl
  cases turn with
  | load me o p p' was now others step => exact h.load lanes lanes' hslot was now others step
  | save me o p p' was now others step =>
    rw [Machine.deed?_of, was] at hd
    refine h.keep hs others (h.count_of_save lanes lanes' was now others hd step)
      (fun q g hq _ => ?_) fun model b hp => ?_
    · rw [now] at hq
      cases hq
    · rw [now, Activity.save.injEq] at hp
      rw [hp] at step
      exact Save.eq_content_of_step hslot step
  | invalidate me o p p' was now others step =>
    refine h.keep hs others (.inl (Machine.count_of_invalidate lanes lanes' was now others step))
      (fun q g hq _ => ?_) fun model b hp => ?_
    · rw [now] at hq
      cases hq
    · rw [now] at hp
      cases hp
  | begin i call last was eq =>
    subst eq
    obtain ⟨was, now⟩ := m.isAtEdge_begin was call
    exact h.edge lanes lanes' was now (fun a ha => Machine.activity_move_of_ne m _ _ ha)
      (Shared.sameCore _ _ _ _ _)
  | edge me o was others core aside => exact h.edge lanes lanes' was aside.isAtEdge others core
  | host holder same shared_eq =>
    refine h.keep hs (fun a (_ : a ≠ .writer) => by rw [same]) (.inl ?_)
      (fun p g hp hg => h.loads .writer p g (by rw [← hp, same]) hg)
      fun model b hp => h.seeds .writer model b (by rw [← hp, same])
    rw [Machine.count, Machine.count, same, shared_eq]
  | stranger slot same shared_eq => exact absurd rfl (hl slot)

end Untouched

/-! ### Whole runs -/

/-- Either nothing has been done to the slot, or the blob in it is one of the saves. -/
structure Chronicle.Dated (c : Setup σ M) (content : σ → Option Bytes) (w : Chronicle σ M) : Prop
    extends w.Rising c where
  untouched : w.deeds = [] → w.machine.Untouched content
  kept : w.deeds ≠ [] → ∀ g, generation? (.ok (content w.machine.shared.slot)) = some g →
    g ∈ generations w.deeds

theorem Chronicle.dated_start (slot : σ) (holder : Holder M) (reports : Reports) :
    Chronicle.Dated c content ⟨.start slot holder reports, []⟩ where
  toRising := Chronicle.rising_start slot holder reports
  untouched _ := by
    refine ⟨.inl rfl, fun a p g hp => ?_, fun a model b hp => ?_⟩
    all_goals cases a <;> cases hp
  kept h := absurd rfl h

theorem Chronicle.Dated.step {w v : Chronicle σ M} (h : w.Dated c content)
    (hslot : c.slot.Lawful content) (hl : ∀ slot, l ≠ .stranger slot) (hstep : w.step c l = some v)
    (hroom : ∀ g ∈ generations v.deeds, g ≠ 0) : v.Dated c content := by
  have hrising := h.toRising.step hstep hroom
  obtain ⟨m, hm, rfl⟩ := Option.map_eq_some_iff.mp hstep
  have turn := turn_of_step hm
  have hcontent := turn.content_eq_leftBy hslot hl
  refine ⟨hrising, fun hdeeds => ?_, fun hdeeds g hg => ?_⟩
  · obtain ⟨hbefore, hnone⟩ := List.append_eq_nil_iff.mp hdeeds
    exact (h.untouched hbefore).turn h.lanes hslot turn hl (Option.toList_eq_nil_iff.mp hnone)
  · rw [generations_append]
    rw [hcontent] at hg
    cases hd : w.machine.deed? c l with
    | none =>
      rw [hd] at hdeeds hg
      rw [Option.toList_none, List.append_nil] at hdeeds
      exact List.mem_append_left _ (h.kept hdeeds g hg)
    | some d =>
      rw [hd] at hg
      cases d with
      | removed => cases hg
      | saved model header blob =>
        -- the blob is made with the generation that is found in it
        obtain ⟨a, o, -, hwrite⟩ := exists_write_of_saved hd
        obtain ⟨-, -, hformat, hblob⟩ := h.numbered a _ hwrite
        replace hg : generation? (.ok (some blob)) = some g := hg
        rw [generation?_of_encode hformat hblob, Option.some.injEq] at hg
        exact List.mem_append_right _ (List.mem_singleton.mpr hg.symm)

/-- **What a save replaces.** A cache has its slot for itself, and its count does not begin again at zero.
A save that replaces a blob has a higher generation than that one, whatever reads have failed, unless it is
the first change of the slot: then it can have generation one instead.  It has not, if the slot could be read
whenever a save has asked for it. -/
theorem generation_of_replaced (hslot : c.slot.Lawful content) {slot : σ} {holder : Holder M}
    {reports : Reports} {ls : List (Machine.Label σ M)} (hls : ∀ l ∈ ls, ∀ s, l ≠ .stranger s)
    {w v : Chronicle σ M} (hrun : run (Chronicle.step c) ⟨.start slot holder reports, []⟩ ls = some w)
    (hstep : w.step c l = some v) (hroom : ∀ g ∈ generations v.deeds, g ≠ 0) {model : M}
    {h : Snapshot.Header} {blob : Bytes} (hsaved : w.machine.deed? c l = some (.saved model h blob))
    {old : Bytes} (hold : content w.machine.shared.slot = some old) {h₀ : Snapshot.Header}
    (hread : Snapshot.readHeader old = .ok h₀) (hformat : h₀.formatVersion = Snapshot.formatVersion) :
    (h₀.generation < h.generation ∨ w.deeds = [] ∧ h.generation = 1) ∧
      (Along (Chronicle.step c) (fun w l => w.machine.Legible l) ⟨.start slot holder reports, []⟩ ls →
        h₀.generation < h.generation) := by
  have hroom' (g : UInt64) (hg : g ∈ generations w.deeds) : g ≠ 0 :=
    hroom g (Chronicle.generations_subset_of_step hstep hg)
  have hdated : w.Dated c content :=
    run_induction (P := fun w => (∀ g ∈ generations w.deeds, g ≠ 0) → w.Dated c content) hrun hls
      (fun _ => Chronicle.dated_start slot holder reports)
      (fun w l v hw hl hs hv =>
        (hw fun g hg => hv g (Chronicle.generations_subset_of_step hs hg)).step hslot hl hs hv) hroom'
  have hgeneration : generation? (.ok (content w.machine.shared.slot)) = some h₀.generation := by
    simp only [hold, generation?, hread, hformat, if_true]
  -- the save counts on
  obtain ⟨m, hm, rfl⟩ := Option.map_eq_some_iff.mp hstep
  have hnext : h.generation = w.machine.count + 1 := by
    rcases (turn_of_step hm).count hdated.lanes hdated.numbered with ⟨-, hnone⟩ | ⟨_, _, _, hd, hnext, -⟩
    · exact absurd hsaved (hnone model h blob)
    · rw [hsaved] at hd
      cases hd
      exact hnext
  have hpositive : w.machine.count + 1 ≠ 0 := by
    refine hroom _ ?_
    rw [generations_append, hsaved, ← hnext]
    exact List.mem_append_right _ (List.mem_singleton.mpr rfl)
  have hrises (hle : h₀.generation ≤ w.machine.count) : h₀.generation < h.generation := by
    rw [hnext]
    grind
  refine ⟨?_, fun legible => hrises ?_⟩
  · by_cases hdeeds : w.deeds = []
    · rcases (hdated.untouched hdeeds).count with hzero | hsome
      · exact .inr ⟨hdeeds, by rw [hnext, hzero]; rfl⟩
      · rw [hgeneration, Option.some.injEq] at hsome
        exact .inl (hrises (UInt64.le_of_eq hsome))
    · exact .inl (hrises (hdated.bounded _ (hdated.kept hdeeds _ hgeneration)))
  · have hexact := Chronicle.exact_of_run hslot hrun legible hroom'
    -- a save that is about to fill the slot has found out its generation
    obtain ⟨a, o, -, hwrite⟩ := exists_write_of_saved hsaved
    have hsettled : w.machine.Settled :=
      hexact.lanes.settled (by rw [hwrite]; rfl) (fun _ _ => rfl) (hexact.numbered a _ hwrite).1
        (by rw [hwrite]; rfl)
    exact UInt64.le_of_eq (hexact.exact.slot hsettled _ hgeneration).symm

/-! ### An old blob -/

/-- The header of a blob that has been saved before. -/
def oldHeader : Snapshot.Header := { modelVersion := 1, generation := 5, savedAt := 7 }

/-- A cache of texts that has just been opened, on a slot with a blob. -/
def oldStart (old : Bytes) : Machine MemorySlot Value :=
  .start { blob := some old } { current := some (.string "b") } {}

/-- A save that gets as far as filling the slot. -/
def replacingRun : List (Machine.Label MemorySlot Value) := .call 0 .save :: List.replicate 5 (.caller 0 {})

/-- A save that can neither read nor fill the slot, and another one that gets as far as filling it. -/
def failingRun : List (Machine.Label MemorySlot Value) :=
  .call 0 .save :: List.replicate 8 (.caller 0 { fault := some MemorySlot.refusal }) ++
    .call 0 .save :: List.replicate 4 (.caller 0 {})

theorem exists_oldBlob : ∃ old, Snapshot.encode textSetup.codec oldHeader (.string "a") 3 = .ok old :=
  ⟨_, rfl⟩

/-- A save replaces a blob of generation five. -/
theorem generation_of_replaced_old :
    ∃ old w v h blob, Snapshot.readHeader old = .ok oldHeader ∧
      run (Chronicle.step textSetup) ⟨oldStart old, []⟩ replacingRun = some w ∧
      w.machine.shared.slot.blob = some old ∧ w.step textSetup (.caller 0 {}) = some v ∧
      w.machine.deed? textSetup (.caller 0 {}) = some (.saved (.string "b") h blob) ∧
      oldHeader.generation < h.generation := by
  obtain ⟨old, hblob⟩ := exists_oldBlob
  have hread := Snapshot.readHeader_encode hblob
  obtain ⟨t, ht, hcallers, hshared, hdeeds⟩ : ∃ t : Chronicle MemorySlot Value,
      run (Chronicle.step textSetup) ⟨oldStart old, []⟩ (replacingRun.take 4) = some t ∧
        t.machine.callers 0 = .saving (.receive (.string "b") (.ok (some old))) ∧
          t.machine.shared = { (oldStart old).shared with writeLane := some (.caller 0), seeded := true } ∧
            t.deeds = [] := ⟨_, rfl, rfl, rfl, rfl⟩
  -- the save takes the generation of the blob in the slot into account
  have hfound : t.step textSetup (.caller 0 {}) = some ⟨t.machine.move 0 (.saving (.encode (.string "b")))
      { (oldStart old).shared with
        writeLane := some (.caller 0), seeded := true, generation := 5 }, []⟩ := by
    simp only [Chronicle.step, Machine.step, Machine.stepCaller, hcallers, Save.step, Outside.outcome,
      generation?_of_encode rfl hblob, Option.map_some, Machine.deed?, Machine.activity, Caller.activity,
      Activity.deed?, Save.deed?, hdeeds, hshared]
    rfl
  obtain ⟨w, v, h, blob, hw, hslot, hv, hdeed, hroom, hgeneration⟩ : ∃ w v h blob,
      run (Chronicle.step textSetup) t [.caller 0 {}, .caller 0 {}] = some w ∧
        w.machine.shared.slot.blob = some old ∧ w.step textSetup (.caller 0 {}) = some v ∧
          w.machine.deed? textSetup (.caller 0 {}) = some (.saved (.string "b") h blob) ∧
            generations v.deeds = [6] ∧ h.generation = 6 := by
    rw [run_cons, hfound]
    exact ⟨_, _, _, _, rfl, rfl, rfl, rfl, rfl, rfl⟩
  have hrun : run (Chronicle.step textSetup) ⟨oldStart old, []⟩ replacingRun = some w := by
    rw [show replacingRun = replacingRun.take 4 ++ [.caller 0 {}, .caller 0 {}] from rfl, run_append, ht,
      Option.bind_some, hw]
  refine ⟨old, w, v, h, blob, hread, hrun, hslot, hv, hdeed, ?_⟩
  refine (generation_of_replaced (MemorySlot.lawful "memory") ?_ hrun hv (by simp [hroom]) hdeed hslot
    hread rfl).1.resolve_right ?_
  · intro l hl slot
    rcases List.mem_cons.mp hl with rfl | hl
    · simp
    · rw [List.eq_of_mem_replicate hl]
      simp
  · rintro ⟨-, hone⟩
    rw [hgeneration] at hone
    cases hone

/-- **A generation that falls.** The first save looks for the generation of the blob in the slot when the
slot cannot be read, and it cannot fill the slot either.  The second save does not look again, although the
slot is fine by now, and replaces a blob of generation five by one of generation one. -/
theorem generation_falls :
    ∃ old w v h blob, Snapshot.readHeader old = .ok oldHeader ∧
      oldHeader.formatVersion = Snapshot.formatVersion ∧ oldHeader.generation.toNat + 1 < UInt64.size ∧
      run (Chronicle.step textSetup) ⟨oldStart old, []⟩ failingRun = some w ∧
      w.machine.shared.slot.blob = some old ∧ w.step textSetup (.caller 0 {}) = some v ∧
      w.machine.deed? textSetup (.caller 0 {}) = some (.saved (.string "b") h blob) ∧
      v.machine.shared.slot.blob = some blob ∧ h.generation < oldHeader.generation := by
  obtain ⟨old, hblob⟩ := exists_oldBlob
  obtain ⟨w, v, h, blob, hw, hslot, hv, hdeed, hvslot, hgeneration⟩ : ∃ w v h blob,
      run (Chronicle.step textSetup) ⟨oldStart old, []⟩ failingRun = some w ∧
        w.machine.shared.slot.blob = some old ∧ w.step textSetup (.caller 0 {}) = some v ∧
          w.machine.deed? textSetup (.caller 0 {}) = some (.saved (.string "b") h blob) ∧
            v.machine.shared.slot.blob = some blob ∧ h.generation = 1 :=
    ⟨_, _, _, _, rfl, rfl, rfl, rfl, rfl, rfl⟩
  exact ⟨old, w, v, h, blob, Snapshot.readHeader_encode hblob, rfl, by decide, hw, hslot, hv, hdeed, hvslot,
    by rw [hgeneration]; decide⟩

end SnapStore.Cache
