import SnapStore.Proofs.Cache.Alone
import SnapStore.Proofs.Cache.Calm

namespace SnapStore.Cache

/-!
# What an invalidation leaves behind

An invalidation drops the pending save and removes the blob.  From then on the slot stays empty until
somebody asks for a save, with one exception: a save that the writer has set out for before, but that
does not have the write lane yet, is neither pending nor in anybody's way, and takes place afterwards.

* `removedSince_of_invalidated` — an invalidation that goes well has removed the blob at some moment.
* `calm_of_removing` — at that moment the cache is calm, unless the writer has set out for a save.
* `empty_after_invalidate` — so the slot stays empty, and only then.
* `invalidate_overtaken` — the exception occurs.
-/

variable {σ M : Type} {c : Setup σ M} {m m' : Machine σ M} {l : Machine.Label σ M} {me : Actor} {o : Outside}
  {s s' : Shared σ M}

/-! ### The moment of the removal -/

theorem Invalidation.eq_of_deed {p p' : Invalidation} (h : p.step c me o s = some (p', s'))
    (hd : p.deed? c o s.slot = some (.removed : Deed M)) : p = .remove ∧ p' = .forget := by
  cases p with
  | remove =>
    simp only [Invalidation.step] at h
    split at h <;> rename_i hr <;> cases h
    · exact ⟨rfl, rfl⟩
    · simp [Invalidation.deed?, hr] at hd
  | _ => cases hd

/-- An invalidation that has removed the blob has done so before, or has just done it. -/
theorem Turn.removed (turn : Turn c m m' l) {i : ThreadId} {q : Invalidation}
    (hq : m'.activity (.caller i) = .invalidate q) (hr : q.hasRemoved = true) :
    (∃ p, m.activity (.caller i) = .invalidate p ∧ p.hasRemoved = true) ∨
      ∃ o, l = .caller i o ∧ m.activity (.caller i) = .invalidate .remove ∧ q = .forget := by
  cases turn.course (.caller i) with
  | same eq => exact .inl ⟨q, by rw [← eq, hq], hr⟩
  | load o p p' label was now step | save o p p' label was now step =>
    rw [now] at hq
    cases hq
  | invalidate o p p' label was now step =>
    rw [now, Activity.invalidate.injEq] at hq
    subst hq
    rcases (Invalidation.hasRemoved_iff step).mp hr with hp | hp
    · exact .inl ⟨p, was, hp⟩
    · obtain ⟨rfl, rfl⟩ := Invalidation.eq_of_deed step hp
      exact .inr ⟨o, label, was, rfl⟩
  | begin j call label was now =>
    rw [now] at hq
    cases call <;> cases hq
    cases hr
  | edge o label was aside =>
    rw [aside.activity_eq_rest] at hq
    cases hq

/-- From one state to another nobody asks for a save, and on the way a caller removes the blob. -/
def Machine.RemovedSince (c : Setup σ M) (i : ThreadId) (m u : Machine σ M) : Prop :=
  ∃ v w o, Reachable (Machine.quiet c) m v ∧ v.callers i = .invalidating .remove ∧
    Machine.quiet c (.caller i o) v = some w ∧ w.callers i = .invalidating .forget ∧
      Reachable (Machine.quiet c) w u

theorem Machine.RemovedSince.snoc {i : ThreadId} {t u : Machine σ M} (h : m.RemovedSince c i t)
    (hstep : t.quiet c l = some u) : m.RemovedSince c i u := by
  obtain ⟨v, w, o, hv, hvi, hw, hwi, ht⟩ := h
  exact ⟨v, w, o, hv, hvi, hw, hwi, ht.snoc hstep⟩

/-- An invalidation that has come to a good end has removed the blob on its way. -/
theorem removedSince_of_invalidated {i : ThreadId} {u : Machine σ M}
    (hcall : m.callers i = .invalidating .cancel) (h : Reachable (Machine.quiet c) m u)
    (hok : u.callers i = .done (.invalidated (.ok ()))) : m.RemovedSince c i u := by
  -- the same holds of every state in which the invalidation has removed the blob
  have hinv := h.induction (P := fun u => Reachable (Machine.quiet c) m u ∧
    (∀ q, u.activity (.caller i) = .invalidate q → q.hasRemoved = true → m.RemovedSince c i u) ∧
      (u.callers i = .done (.invalidated (.ok ())) → m.RemovedSince c i u)) ?_ ?_
  · exact hinv.2.2 hok
  · refine ⟨.refl m, fun q hq hr => ?_, fun hd => ?_⟩
    · simp only [Machine.activity, hcall, Caller.activity, Activity.invalidate.injEq] at hq
      subst hq
      cases hr
    · rw [hcall] at hd
      cases hd
  · rintro t l u ⟨ht, hplace, hanswer⟩ hstep
    obtain ⟨-, hm⟩ := Machine.quiet_eq_some_iff.mp hstep
    refine ⟨ht.snoc hstep, fun q hq hr => ?_, fun hd => ?_⟩
    · rcases (turn_of_step hm).removed hq hr with ⟨p, hp, hr⟩ | ⟨o, rfl, hp, rfl⟩
      · exact (hplace p hp hr).snoc hstep
      · exact ⟨t, u, o, ht, Caller.eq_of_activity hp, hstep, Caller.eq_of_activity hq, .refl u⟩
    · rcases place_of_answer hm hd rfl with hd | hp
      · exact (hanswer hd).snoc hstep
      · exact (hplace (.done (.ok ())) (by simp only [Machine.activity, hp]; rfl) rfl).snoc hstep

/-! ### The condition -/

/-- Once a caller has dropped the pending save, none is pending as long as nobody asks for one. -/
theorem Turn.dropped (turn : Turn c m m' l) (hl : m.disturbs l = false) {i : ThreadId}
    (h : ∀ p, m.activity (.caller i) = .invalidate p → p ≠ .cancel → m.shared.signal.pending = none)
    {q : Invalidation} (hq : m'.activity (.caller i) = .invalidate q) (hne : q ≠ .cancel) :
    m'.shared.signal.pending = none := by
  cases turn.course (.caller i) with
  | same eq => exact turn.pending_eq_none (Machine.requests_eq_false hl) (h q (by rw [← eq, hq]) hne)
  | load o p p' label was now step | save o p p' label was now step =>
    rw [now] at hq
    cases hq
  | invalidate o p p' label was now step =>
    -- either it drops the pending save with this step, or it has done so before
    by_cases hp : p = .cancel
    · exact Invalidation.pending_eq_none step (.inl hp)
    · exact Invalidation.pending_eq_none step (.inr (h p was hp))
  | begin j call label was now =>
    rw [now] at hq
    cases call <;> cases hq
    exact absurd rfl hne
  | edge o label was aside =>
    rw [aside.activity_eq_rest] at hq
    cases hq

/-- The cache is calm when an invalidation removes the blob, unless the writer has set out for a save. -/
theorem calm_of_removing {i : ThreadId} {u : Machine σ M}
    (hcall : m.callers i = .invalidating .cancel)
    (hsaves : ∀ j p, m.activity (.caller j) = .save p → p.isDone = true)
    (h : Reachable (Machine.quiet c) m u) (lanes : u.Lanes)
    (hremove : u.callers i = .invalidating .remove) (hwriter : ∀ d, u.writer ≠ .saving d .enter) :
    u.Calm := by
  have hi : u.activity (.caller i) = .invalidate .remove := by simp only [Machine.activity, hremove]; rfl
  have hinv := h.induction (P := fun u =>
    (∀ j p, u.activity (.caller j) = .save p → p.isDone = true) ∧
      ∀ q, u.activity (.caller i) = .invalidate q → q ≠ .cancel → u.shared.signal.pending = none) ?_ ?_
  · refine ⟨hinv.2 _ hi (by simp), hinv.1, ?_⟩
    intro p hp
    by_contra hdone
    -- the write lane is in the hand of the caller
    have hwrite : p.holdsWrite = true := by
      cases hw : u.writer with
      | saving d q =>
        simp only [Machine.activity, hw, Writer.activity, Activity.save.injEq] at hp
        subst hp
        cases q with
        | enter => exact absurd hw (hwriter d)
        | done => exact absurd rfl hdone
        | _ => rfl
      | _ =>
        simp only [Machine.activity, hw] at hp
        cases hp
    have := lanes.write.unique (a := .writer) (b := .caller i) (by rw [hp]; exact hwrite) (by rw [hi]; rfl)
    cases this
  · refine ⟨hsaves, ?_⟩
    intro q hq hne
    simp only [Machine.activity, hcall, Caller.activity, Activity.invalidate.injEq] at hq
    exact absurd hq.symm hne
  · rintro t l u ⟨hcallers, hdropped⟩ hstep
    obtain ⟨hl, hm⟩ := Machine.quiet_eq_some_iff.mp hstep
    exact ⟨fun _ _ => (turn_of_step hm).callers_isDone hl hcallers,
      fun _ => (turn_of_step hm).dropped hl hdropped⟩

/-- An invalidation that has removed the blob and is left alone returns. -/
theorem exists_return {i : ThreadId} (hi : m.callers i = .invalidating .forget) :
    ∃ u, Reachable (Machine.quiet c) m u ∧ u.callers i = .done (.invalidated (.ok ())) ∧
      u.writer = m.writer ∧ u.shared.slot = m.shared.slot ∧ u.shared.writeLane = none := by
  have hrun : run (Machine.quiet c) m (List.replicate 4 (.caller i {})) =
      some (m.move i (.done (.invalidated (.ok ()))) { m.shared with
        current := none, knownBad := false, writeLane := none, loadLane := none }) := by
    simp only [List.replicate, run_cons, run_nil, Machine.quiet, Machine.disturbs, Machine.step,
      Machine.stepCaller, hi, Machine.callers_move_self, Machine.move_move, Invalidation.step,
      Option.map_some, Option.bind_some, Bool.false_eq_true, if_false]
    rfl
  exact ⟨_, ⟨_, hrun⟩, Machine.callers_move_self .., rfl, rfl, rfl⟩

/-- A writer that has set out for a save fills the slot, if the host has a model by then. -/
theorem exists_save_of_entering {content : σ → Option Bytes} (hslot : c.slot.Lawful content)
    {d : Flush.Decision} (hwriter : m.writer = .saving d .enter) (hfree : m.shared.writeLane = none)
    {model : M} (hform : ∃ body, c.codec.encode model = .ok body)
    (hwrite : ∀ blob, (c.slot.write blob m.shared.slot).1 = .ok ()) :
    ∃ u, Reachable (Machine.quiet c) m u ∧ ∃ blob, content u.shared.slot = some blob := by
  obtain ⟨n, _, blob, _, _, hn⟩ := run_save (c := c) .writer
    (s := { m.shared with holder := ⟨some model, 0⟩ })
    hfree rfl hform hwrite
  obtain ⟨⟨p', s'⟩, hs, hfacts⟩ := Option.map_eq_some_iff.mp hn
  simp only [Prod.mk.injEq] at hfacts
  obtain ⟨-, hslot', -⟩ := hfacts
  have hrun := run_writing m d hs
  rw [List.map_replicate, ← hwriter] at hrun
  rw [← run_quiet fun l hl m => by rw [List.eq_of_mem_replicate hl]; rfl] at hrun
  refine ⟨_, (Reachable.refl m).snoc (l := .host ⟨some model, 0⟩) rfl |>.trans ⟨_, hrun⟩, blob, ?_⟩
  have hw : c.slot.write blob m.shared.slot = (.ok (), s'.slot) := by
    rw [hslot', ← hwrite blob]
  exact hslot.write_ok hw

/-- **Invalidation wins, or not.** A caller invalidates the cache while no other caller saves, and from then
on nobody asks for a save.  If it is told that all went well, then there was a step by which it removed the
blob.  If the writer had not set out for a save by then, or had finished it, the slot stays empty from
the return on, and loads find nothing.  If it had, without having the write lane yet, then its save can
still fill the slot after the return. -/
theorem empty_after_invalidate {content : σ → Option Bytes} (hslot : c.slot.Lawful content) {slot : σ}
    {holder : Holder M} {reports : Reports} {i : ThreadId} {m₀ m₁ m₂ : Machine σ M}
    (hstart : Reachable (Machine.step c) (.start slot holder reports) m₀)
    (hsaves : ∀ j p, m₀.callers j = .saving p → p.isDone = true)
    (hcall : Machine.step c (.call i .invalidate) m₀ = some m₁)
    (hrun : Reachable (Machine.quiet c) m₁ m₂)
    (hok : m₂.callers i = .done (.invalidated (.ok ()))) :
    ∃ u v o, Reachable (Machine.quiet c) m₁ u ∧ u.callers i = .invalidating .remove ∧
      Machine.quiet c (.caller i o) u = some v ∧ v.callers i = .invalidating .forget ∧
      Reachable (Machine.quiet c) v m₂ ∧
      ((∀ d, u.writer ≠ .saving d .enter) → m₂.StaysEmpty c content) ∧
      ∀ d, u.writer = .saving d .enter → (∃ model body, c.codec.encode model = .ok body) →
        (∀ blob, (c.slot.write blob v.shared.slot).1 = .ok ()) →
          ∃ w, Reachable (Machine.quiet c) v w ∧ w.callers i = .done (.invalidated (.ok ())) ∧
            ¬ w.StaysEmpty c content := by
  have hm₁ : m₁.callers i = .invalidating .cancel ∧
      ∀ j p, m₁.activity (.caller j) = .save p → p.isDone = true := by
    simp only [Machine.step] at hcall
    split at hcall <;> cases hcall
    refine ⟨Machine.callers_move_self .., ?_⟩
    intro j p hp
    by_cases hj : j = i
    · rw [hj, Machine.activity_move_self] at hp
      cases hp
    · rw [Machine.activity_move_of_ne m₀ _ _ (fun h => hj (Actor.caller.inj h))] at hp
      exact hsaves j p (Caller.eq_saving_of_activity hp)
  obtain ⟨u, v, o, hu, hremove, hstep, hforget, hv⟩ := removedSince_of_invalidated hm₁.1 hrun hok
  obtain ⟨-, huv⟩ := Machine.quiet_eq_some_iff.mp hstep
  have hlanes : u.Lanes :=
    Machine.lanes_of_reachable ((hstart.snoc hcall).trans (reachable_of_quiet hu))
  refine ⟨u, v, o, hu, hremove, hstep, hforget, hv, fun hwriter => ?_, fun d hwriter hmodel hwrite => ?_⟩
  · -- nothing is on its way, so that what the removal leaves stays
    have hcalm := calm_of_removing hm₁.1 hm₁.2 hu hlanes hremove hwriter
    have hempty := emptied_of_remove hslot hcalm hlanes hremove huv hforget
    -- by the time it returns, the caller has forgotten the snapshot in memory
    have hlast := hv.induction (P := fun t => t.Emptied c content ∧
      (t.shared.current = none ∨ t.activity (.caller i) = .invalidate .forget))
      ⟨hempty, .inr (by simp only [Machine.activity, hforget]; rfl)⟩ ?_
    · refine staysEmpty_of_emptied hslot hlast.1 (hlast.2.resolve_right fun h => ?_)
      simp only [Machine.activity, hok] at h
      cases h
    · rintro t l w ⟨ht, hmemory⟩ hs
      obtain ⟨hl, hm⟩ := Machine.quiet_eq_some_iff.mp hs
      obtain ⟨hw, hcurrent⟩ := ht.turn hslot (turn_of_step hm) hl
      refine ⟨hw, ?_⟩
      rcases hmemory with hnone | hforget
      · exact .inl (hcurrent.elim (fun hc => by rw [hc, hnone]) id)
      · exact (turn_of_step hm).forgets hforget
  · -- the caller returns, the host gets a model, and only then does the writer go on
    obtain ⟨model, hform⟩ := hmodel
    have hvwriter : v.writer = .saving d .enter := by
      obtain ⟨q, s, rfl, -⟩ := exists_move_of_stepCaller huv
      exact hwriter
    obtain ⟨w, hw, hreturned, hwwriter, hwslot, hfree⟩ := exists_return (c := c) hforget
    refine ⟨w, hw, hreturned, ?_⟩
    intro hstays
    obtain ⟨t, ht, blob, hblob⟩ := exists_save_of_entering hslot (hwwriter.trans hvwriter) hfree hform
      (by rw [hwslot]; exact hwrite)
    rw [(hstays t ht).1] at hblob
    cases hblob

/-- A caller invalidates a cache that has just been opened. -/
theorem empty_after_invalidate_fresh :
    ∃ m, run (Machine.step textSetup) textStart
        (.call 0 .invalidate :: List.replicate 8 (.caller 0 {})) = some m ∧
      m.callers 0 = .done (.invalidated (.ok ())) ∧ m.StaysEmpty textSetup (·.blob) := by
  obtain ⟨m₁, hcall, hm₁⟩ : ∃ m₁, Machine.step textSetup (.call 0 .invalidate) textStart = some m₁ ∧
      m₁.Calm :=
    ⟨_, rfl, (Machine.calm_start ..).turn (turn_of_step (c := textSetup) (l := .call 0 .invalidate) rfl) rfl⟩
  obtain ⟨m₂, hquiet, hok⟩ : ∃ m₂,
      run (Machine.quiet textSetup) m₁ (List.replicate 8 (.caller 0 {})) = some m₂ ∧
        m₂.callers 0 = .done (.invalidated (.ok ())) := by
    cases hcall
    exact ⟨_, rfl, rfl⟩
  obtain ⟨u, v, o, hu, -, -, -, -, hempty, -⟩ :=
    empty_after_invalidate (MemorySlot.lawful "memory") (.refl textStart) (fun _ _ h => by cases h) hcall
      ⟨_, hquiet⟩ hok
  -- nobody has ever asked for a save, so that the writer has not set out for one
  have hcalm : u.Calm := hu.induction hm₁ fun _ _ _ ht hs =>
    ht.turn (turn_of_step (Machine.quiet_eq_some_iff.mp hs).2) (Machine.quiet_eq_some_iff.mp hs).1
  refine ⟨m₂, by rw [run_cons, hcall, Option.bind_some, run_of_quiet hquiet], hok,
    hempty ?_⟩
  intro d hwriter
  have hdone := hcalm.writer .enter (by simp only [Machine.activity, hwriter]; rfl)
  cases hdone

/-- A save is asked for, and the writer decides on it. -/
def requestRun : List (Machine.Label MemorySlot Value) :=
  [.call 0 .schedule, .caller 0 {}, .caller 0 {}, .caller 0 {}, .writer {}]

/-- **An invalidation that does not win.** The writer has decided on a save, and has not begun it; a caller
invalidates the cache, and only after that does the writer go on.  Nobody asks for a save after the
invalidation has begun, but in the end there is a blob in the slot. -/
theorem invalidate_overtaken :
    ∃ m₀ m₁ m₂ m₃, run (Machine.step textSetup) textStart requestRun = some m₀ ∧
      (∀ j p, m₀.callers j ≠ .saving p) ∧
      Machine.step textSetup (.call 0 .invalidate) m₀ = some m₁ ∧
      Reachable (Machine.quiet textSetup) m₁ m₂ ∧
      m₂.callers 0 = .done (.invalidated (.ok ())) ∧
      Reachable (Machine.quiet textSetup) m₂ m₃ ∧ ∃ blob, m₃.shared.slot.blob = some blob := by
  obtain ⟨m₀, m₁, v, hm₀, hcallers, hcall, hv, hforget, hwriter, hvslot⟩ : ∃ m₀ m₁ v,
      run (Machine.step textSetup) textStart requestRun = some m₀ ∧
        (∀ j, ∃ last, m₀.callers j = .outside last) ∧
          Machine.step textSetup (.call 0 .invalidate) m₀ = some m₁ ∧
            run (Machine.quiet textSetup) m₁ (List.replicate 4 (.caller 0 {})) = some v ∧
              v.callers 0 = .invalidating .forget ∧ v.writer = .saving .flush .enter ∧
                v.shared.slot.failWrites = false := by
    refine ⟨_, _, _, rfl, fun j => ?_, rfl, rfl, rfl, rfl, rfl⟩
    by_cases hj : j = 0
    · exact ⟨_, by rw [hj]; rfl⟩
    · exact ⟨none, by simp [Machine.move, goTo, hj, textStart, Machine.start]⟩
  obtain ⟨m₂, hm₂, hok, hwriter₂, hslot₂, hfree⟩ := exists_return (c := textSetup) hforget
  have hwrite (blob : Bytes) : (textSetup.slot.write blob m₂.shared.slot).1 = .ok () := by
    simp [textSetup, MemorySlot.slot, hslot₂, hvslot]
  have hform : ∃ body, textSetup.codec.encode (.string "a") = .ok body :=
    Layout.exists_encode (l := .mk .string []) rfl (.string (by decide))
  obtain ⟨m₃, hm₃, hblob⟩ := exists_save_of_entering (MemorySlot.lawful "memory")
    (hwriter₂.trans hwriter) hfree hform hwrite
  refine ⟨m₀, m₁, m₂, m₃, hm₀, fun j p h => ?_, hcall, .trans ⟨_, hv⟩ hm₂, hok, hm₃, hblob⟩
  obtain ⟨last, hlast⟩ := hcallers j
  rw [hlast] at h
  cases h

end SnapStore.Cache
