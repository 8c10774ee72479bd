import SnapStore.Proofs.Cache.Agreement
import SnapStore.Proofs.Cache.Alone

namespace SnapStore.Cache

/-!
# What a fresh cache finds

A cache that is opened on a slot finds there what the cache before it has left.

* `load_fresh` — a fresh cache loads what the blob in the slot decodes to, or nothing.
* `memory_and_slot_agree` — what a cache has in memory and in its slot, and what a fresh cache finds.
-/

variable {σ M : Type} {c : Setup σ M}

/-- **A fresh cache.** The first load of a fresh cache returns what the blob in its slot holds, if the slot
can be read. -/
theorem load_fresh {slot : σ} (holder : Holder M) (reports : Reports) {blob : Option Bytes}
    (hread : c.slot.read slot = .ok blob) :
    ∃ n, (run (Machine.step c) (.start slot holder reports)
        (.call 0 .load :: List.replicate n (.caller 0 {}))).map (·.callers 0) =
      some (.done (.loaded (modelOf c blob))) := by
  have hcold : ∃ n, (run (Load.next c (.caller 0)) (.peek, { slot, holder, reports })
      (List.replicate n {})).map (·.1) = some (.done (modelOf c blob)) :=
    run_load_cold (.caller 0) rfl rfl rfl rfl hread
  obtain ⟨n, hn⟩ := hcold
  obtain ⟨⟨p', s'⟩, h, hp⟩ := Option.map_eq_some_iff.mp hn
  cases hp
  have hbegin : Machine.step c (.call 0 .load) (.start slot holder reports) =
      some ((Machine.start slot holder reports).move 0 (.loading .peek) { slot, holder, reports }) := rfl
  have hrun := run_loading (Machine.start slot holder reports) 0 h
  rw [List.map_replicate] at hrun
  refine ⟨n + 1, ?_⟩
  rw [run_cons, hbegin, Option.bind_some, List.replicate_succ', run_append, hrun, Option.bind_some,
    run_singleton]
  simp only [Machine.step, Machine.stepCaller, Machine.move, goTo_self, Option.map_some]

/-! ### A cache and its slot -/

/-- **Memory and slot agree.** A cache has its slot for itself and is given valid models.  Whenever the
write lane is free, the slot holds what the last save or invalidation has left there, and the snapshot
in memory, if there is one, is what the slot holds.  So a fresh cache of the same model version, on that
slot, loads the model of the last save, or nothing if an invalidation came after it. -/
theorem memory_and_slot_agree {content : σ → Option Bytes} {valid : M → Prop}
    (hslot : c.slot.Lawful content) (hcodec : c.codec.Faithful valid) {slot : σ} {holder : Holder M}
    (hvalid : ∀ model, holder.current = some model → valid model) {reports : Reports}
    {ls : List (Machine.Label σ M)} (hls : ∀ l ∈ ls, l.Owned valid) {w : Chronicle σ M}
    (hrun : run (Chronicle.step c) ⟨.start slot holder reports, []⟩ ls = some w)
    (hfree : w.machine.shared.writeLane = none) :
    content w.machine.shared.slot = leftBy (content slot) w.deeds ∧
      (∀ model, w.machine.shared.current = some model → ∃ blob h,
        content w.machine.shared.slot = some blob ∧
          Snapshot.decode c.codec c.modelVersion blob = .ok (h, model)) ∧
      ∀ (c' : Setup σ M) holder' reports', c'.slot = c.slot → c'.codec = c.codec →
        c'.modelVersion = c.modelVersion →
        (c.slot.read w.machine.shared.slot).isOk = true → ∀ d, w.deeds.getLast? = some d →
          ∃ n, (run (Machine.step c') (.start w.machine.shared.slot holder' reports')
              (.call 0 .load :: List.replicate n (.caller 0 {}))).map (·.callers 0) =
            some (.done (.loaded d.model?)) := by
  -- the invariant holds at first, and every step keeps it
  have h : w.Agrees c content valid (content slot) :=
    run_induction hrun hls (Chronicle.agrees_start reports hvalid)
      fun _ _ _ hw hl hs => hw.step hslot hcodec hl hs
  refine ⟨h.left, fun model hmodel => ?_, fun c' holder' reports' hs hc hv hread d hd => ?_⟩
  · rcases h.coherent.memory model hmodel with hdecodes | ⟨a, ha⟩
    · exact hdecodes
    · -- nobody is about to change the snapshot, for nobody has the write lane
      have := (h.lanes.write a).mpr (Activity.holdsWrite_of_isChanging ha)
      rw [hfree] at this
      cases this
  · cases hr : c.slot.read w.machine.shared.slot with
    | error e =>
      rw [hr] at hread
      cases hread
    | ok blob =>
      have hblob : blob = d.left := by
        rw [hslot.read hr, h.left, leftBy, hd]
      -- what the last deed has left is what it decodes to
      have hmodel : modelOf c' blob = d.model? := by
        rw [hblob]
        cases d with
        | removed => rfl
        | saved model header b =>
          have hdecode := h.genuine model header b (List.mem_of_getLast? hd)
          simp only [modelOf, Deed.left, Option.bind_some, hc, hv, hdecode, Except.toOption,
            Option.map_some, Deed.model?]
      rw [← hmodel]
      exact load_fresh holder' reports' (by rw [hs]; exact hr)

/-- A text is saved over a blob that means nothing. -/
theorem memory_and_slot_agree_saved :
    ∃ ls w, (∀ l ∈ ls, l.Owned (Layout.mk .string []).Admits) ∧
      run (Chronicle.step textSetup) ⟨textStart, []⟩ ls = some w ∧
      w.machine.shared.writeLane = none ∧ w.machine.shared.current = some (.string "a") ∧
      ∃ blob h, w.machine.shared.slot.blob = some blob ∧
        Snapshot.decode textSetup.codec 1 blob = .ok (h, .string "a") := by
  have hadmits : (Layout.mk .string []).Admits (.string "a") := .string (by decide)
  obtain ⟨n, _, _, _, _, hn⟩ := run_save (c := textSetup) (.caller 0) (s := textStart.shared) rfl rfl
    (Layout.exists_encode rfl hadmits) (fun _ => rfl)
  obtain ⟨⟨p', s'⟩, hs, hfacts⟩ := Option.map_eq_some_iff.mp hn
  simp only [Prod.mk.injEq] at hfacts
  obtain ⟨-, -, hcurrent, hfree⟩ := hfacts
  -- the steps of the save are steps of the cache
  have hrun := run_saving textStart 0 hs
  rw [List.map_replicate] at hrun
  have hcall : run (Machine.step textSetup) textStart
      (.call 0 .save :: List.replicate n (.caller 0 {})) = some (textStart.move 0 (.saving p') s') := hrun
  obtain ⟨w, hw, hwm⟩ := Chronicle.exists_run (w := ⟨textStart, []⟩) hcall
  have howned : ∀ l ∈ (.call 0 .save :: List.replicate n (.caller 0 {}) :
        List (Machine.Label MemorySlot Value)),
      l.Owned (Layout.mk .string []).Admits := by
    intro l hl
    rcases List.mem_cons.mp hl with rfl | hl
    · trivial
    · rw [List.eq_of_mem_replicate hl]
      trivial
  have hwfree : w.machine.shared.writeLane = none := by rw [hwm]; exact hfree
  have hwcurrent : w.machine.shared.current = some (.string "a") := by rw [hwm]; exact hcurrent
  refine ⟨_, w, howned, hw, hwfree, hwcurrent, ?_⟩
  refine (memory_and_slot_agree (MemorySlot.lawful "memory") (Layout.faithful_codec _) ?_ howned hw
    hwfree).2.1 _ hwcurrent
  intro model hmodel
  cases hmodel
  exact hadmits

end SnapStore.Cache
