import SnapStore.Proofs.Cache.Steps
import SnapStore.Proofs.Cache.Alone
import SnapStore.Proofs.Cache.Calm

namespace SnapStore.Cache

/-!
# Invalidations that fail

An invalidation drops the pending save before it tries to remove the blob.  If the blob cannot be removed,
then nothing else has changed, but the pending save is gone; only a save that the writer has taken up before
is still made.

* `Invalidation.verdict?` is the answer of an invalidation, once it is settled.
* `Machine.SparesAllButPending` — a step of a caller changes nothing but who holds the lanes, or drops
  the pending save.
* `failed_invalidation_spares_all_but_pending` — all steps of an invalidation that fails do.
* `failed_invalidation_drops_pending` — a pending save that is lost in this way.
-/

variable {σ M : Type} {c : Setup σ M} {m m' : Machine σ M} {i : ThreadId}

/-! ### The answer of an invalidation -/

/-- A change that fails has changed nothing, be it that the slot was kept from trying. -/
theorem eq_of_failed_change {α : Type} {f : σ → Except CacheError α × σ}
    (hf : ∀ {s e s'}, f s = (.error e, s') → s' = s) {o : Outside} {s s' : σ} {e : CacheError}
    (h : o.change f s = (.error e, s')) : s' = s :=
  (Outside.change_error h).elim hf id

/-- The answer of an invalidation, once it is settled: the removal of the blob settles it. -/
def Invalidation.verdict? : Invalidation → Option (Except CacheError Unit)
  | .forget | .absolve => some (.ok ())
  | .leave result | .done result => some result
  | _ => none

/-- The answer to the invalidation of a caller, once it is settled. -/
def Caller.verdict? : Caller M → Option (Except CacheError Unit)
  | .invalidating p => p.verdict?
  | .outside (some (.invalidated result)) => some result
  | _ => none

section Step

variable {me : Actor} {o : Outside} {s s' : Shared σ M} {p p' : Invalidation}

/-- A settled answer stays. -/
theorem Invalidation.verdict?_of_step (h : p.step c me o s = some (p', s'))
    {result : Except CacheError Unit} (hp : p.verdict? = some result) : p'.verdict? = some result := by
  cases p with
  | cancel | enterLoad | enterWrite | remove => cases hp
  | forget | absolve | leave =>
    cases h
    exact hp
  | done result => cases h

/-- An answer that a step settles comes from the removal of the blob. -/
theorem Invalidation.eq_remove_of_step (h : p.step c me o s = some (p', s')) (hp : p.verdict? = none)
    {e : CacheError} (hp' : p'.verdict? = some (.error e)) :
    p = .remove ∧ (o.change c.slot.remove s.slot).1 = .error e := by
  cases p with
  | cancel =>
    cases h
    cases hp'
  | enterLoad | enterWrite =>
    simp only [Invalidation.step] at h
    split at h <;> cases h
    cases hp'
  | remove =>
    simp only [Invalidation.step] at h
    split at h <;> rename_i hr <;> cases h <;> cases hp'
    exact ⟨rfl, by rw [hr]⟩
  | forget | absolve | leave | done => cases hp

/-- A step of an invalidation that has not gone well changes nothing but who holds the lanes; the first
one drops the pending save. -/
theorem Invalidation.spares (hremove : ∀ {s e s'}, c.slot.remove s = (.error e, s') → s' = s)
    (h : p.step c me o s = some (p', s')) (hp' : p'.verdict? ≠ some (.ok ())) :
    (p = .cancel → s' = { s with signal := s.signal.cancel.2 }) ∧
      (p ≠ .cancel → s' = { s with loadLane := s'.loadLane, writeLane := s'.writeLane }) := by
  cases p with
  | cancel =>
    cases h
    exact ⟨fun _ => rfl, fun hne => absurd rfl hne⟩
  | enterLoad | enterWrite =>
    simp only [Invalidation.step] at h
    split at h <;> cases h
    exact ⟨fun hc => (by cases hc), fun _ => rfl⟩
  | remove =>
    simp only [Invalidation.step] at h
    split at h <;> rename_i hr <;> cases h
    · exact absurd rfl hp'
    · refine ⟨fun hc => (by cases hc), fun _ => ?_⟩
      rw [eq_of_failed_change hremove hr]
  | forget | absolve =>
    cases h
    exact absurd rfl hp'
  | leave result =>
    cases h
    exact ⟨fun hc => (by cases hc), fun _ => rfl⟩
  | done result => cases h

end Step

/-! ### The steps of a caller -/

/-- A step of a caller changes nothing but who holds the lanes, or drops the pending save if this is how an
invalidation begins. -/
def Machine.SparesAllButPending (c : Setup σ M) (i : ThreadId) (m : Machine σ M) (l : Label σ M) :
    Prop :=
  ∀ o m', l = .caller i o → m.step c l = some m' →
    (m.callers i = .invalidating .cancel →
      m'.shared = { m.shared with signal := m.shared.signal.cancel.2 }) ∧
    (m.callers i ≠ .invalidating .cancel →
      m'.shared = { m.shared with
        loadLane := m'.shared.loadLane, writeLane := m'.shared.writeLane })

/-- A step of others leaves a caller where it is. -/
theorem callers_of_step {l : Machine.Label σ M} (h : m.step c l = some m')
    (hcall : ∀ call, l ≠ .call i call) (hcaller : ∀ o, l ≠ .caller i o) :
    m'.callers i = m.callers i := by
  cases l with
  | call j call =>
    simp only [Machine.step] at h
    split at h <;> cases h
    exact goTo_of_ne m.callers _ fun hj => hcall call (by rw [hj])
  | caller j o =>
    obtain ⟨q, s, rfl, -⟩ := exists_move_of_stepCaller (show m.stepCaller c j o = some m' from h)
    exact goTo_of_ne m.callers q fun hj => hcaller o (by rw [hj])
  | writer o => rw [callers_of_stepWriter h]
  | host holder =>
    cases h
    rfl
  | stranger slot =>
    cases h
    rfl

/-- A step of a caller that is invalidating is a step of its invalidation, or tells it what came of it. -/
theorem stepCaller_of_invalidating {o : Outside} {p : Invalidation}
    (h : m.stepCaller c i o = some m') (hi : m.callers i = .invalidating p) :
    (∃ p' s', p.step c (.caller i) o m.shared = some (p', s') ∧ m' = m.move i (.invalidating p') s') ∨
      ∃ result, p = .done result ∧ m' = m.move i (.done (.invalidated result)) m.shared := by
  simp only [Machine.stepCaller, hi] at h
  cases p with
  | done result =>
    cases h
    exact .inr ⟨result, rfl, rfl⟩
  | _ =>
    obtain ⟨⟨p', s'⟩, hp, rfl⟩ := Option.map_eq_some_iff.mp h
    exact .inl ⟨p', s', hp, rfl⟩

/-- The settled answer of a caller stays as long as it makes no other call. -/
theorem verdict?_of_step {l : Machine.Label σ M} (h : m.step c l = some m')
    (hcall : ∀ call, l ≠ .call i call) {result : Except CacheError Unit}
    (hi : (m.callers i).verdict? = some result) : (m'.callers i).verdict? = some result := by
  by_cases hl : ∃ o, l = .caller i o
  · obtain ⟨o, rfl⟩ := hl
    cases hq : m.callers i with
    | invalidating p =>
      rw [hq] at hi
      rcases stepCaller_of_invalidating h hq with ⟨p', s', hp, rfl⟩ | ⟨r, rfl, rfl⟩
      · rw [Machine.callers_move_self]
        exact Invalidation.verdict?_of_step hp hi
      · rw [Machine.callers_move_self]
        exact hi
    | outside last =>
      -- a caller that is outside has no step but a call
      simp only [Machine.step, Machine.stepCaller, hq] at h
      cases h
    | _ =>
      rw [hq] at hi
      cases hi
  · rw [callers_of_step h hcall fun o ho => hl ⟨o, ho⟩, hi]

theorem verdict?_of_run {ls : List (Machine.Label σ M)} (h : run (Machine.step c) m ls = some m')
    (hcalls : ∀ l ∈ ls, ∀ call, l ≠ .call i call) {result : Except CacheError Unit}
    (hi : (m.callers i).verdict? = some result) : (m'.callers i).verdict? = some result :=
  run_induction (P := fun u => (u.callers i).verdict? = some result) h hcalls hi
    fun _ _ _ hu hl hs => verdict?_of_step hs hl hu

/-- A removal that fails is somewhere in a run. -/
def FailsToRemove (c : Setup σ M) (i : ThreadId) (m : Machine σ M) (ls : List (Machine.Label σ M))
    (e : CacheError) : Prop :=
  ∃ before o after v, ls = before ++ .caller i o :: after ∧ run (Machine.step c) m before = some v ∧
    v.callers i = .invalidating .remove ∧ (o.change c.slot.remove v.shared.slot).1 = .error e

theorem FailsToRemove.cons {l : Machine.Label σ M} {ls : List (Machine.Label σ M)} {e : CacheError}
    (h : FailsToRemove c i m' ls e) (hl : m.step c l = some m') : FailsToRemove c i m (l :: ls) e := by
  obtain ⟨before, o, after, v, rfl, hv, hplace, hfail⟩ := h
  exact ⟨l :: before, o, after, v, rfl, by rw [run_cons, hl, Option.bind_some, hv], hplace, hfail⟩

/-- **Where a failure comes from.** An invalidation whose answer is not settled yet, and is an error in the
end, fails to remove the blob on its way. -/
theorem failsToRemove_of_run {e : CacheError} {u : Machine σ M}
    (hfailed : u.callers i = .done (.invalidated (.error e))) {ls : List (Machine.Label σ M)}
    (hcalls : ∀ l ∈ ls, ∀ call, l ≠ .call i call) (hrun : run (Machine.step c) m ls = some u)
    {p : Invalidation} (hi : m.callers i = .invalidating p) (hp : p.verdict? = none) :
    FailsToRemove c i m ls e := by
  induction ls generalizing m p with
  | nil =>
    cases hrun
    rw [hi] at hfailed
    cases hfailed
  | cons l ls ih =>
    rw [run_cons, Option.bind_eq_some_iff] at hrun
    obtain ⟨v, hv, hrest⟩ := hrun
    have hcalls' : ∀ k ∈ ls, ∀ call, k ≠ .call i call := fun k hk => hcalls k (List.mem_cons_of_mem l hk)
    by_cases hl : ∃ o, l = .caller i o
    · obtain ⟨o, rfl⟩ := hl
      rcases stepCaller_of_invalidating hv hi with ⟨p', s', hstep, rfl⟩ | ⟨result, rfl, rfl⟩
      · have hplace : (m.move i (.invalidating p') s').callers i = .invalidating p' :=
          Machine.callers_move_self ..
        cases hp' : p'.verdict? with
        | none => exact (ih hcalls' hrest hplace hp').cons hv
        | some result =>
          -- what is settled now is what the caller is told in the end
          have hend := verdict?_of_run hrest hcalls' (by rw [hplace]; exact hp')
          rw [hfailed] at hend
          cases hend
          obtain ⟨rfl, hfail⟩ := Invalidation.eq_remove_of_step hstep hp hp'
          exact ⟨[], o, ls, m, rfl, rfl, hi, hfail⟩
      · cases hp
    · have hsame := callers_of_step hv (hcalls l List.mem_cons_self) fun o ho => hl ⟨o, ho⟩
      exact (ih hcalls' hrest (by rw [hsame, hi]) hp).cons hv

/-- Whether a caller is invalidating the cache or has just done so. -/
def Caller.isInvalidating : Caller M → Bool
  | .invalidating _ | .outside (some (.invalidated _)) => true
  | _ => false

theorem isInvalidating_of_step {l : Machine.Label σ M} (h : m.step c l = some m')
    (hcall : ∀ call, l ≠ .call i call) (hi : (m.callers i).isInvalidating = true) :
    (m'.callers i).isInvalidating = true := by
  by_cases hl : ∃ o, l = .caller i o
  · obtain ⟨o, rfl⟩ := hl
    cases hq : m.callers i with
    | invalidating p =>
      rcases stepCaller_of_invalidating h hq with ⟨p', s', hp, rfl⟩ | ⟨r, rfl, rfl⟩ <;>
        rw [Machine.callers_move_self] <;> rfl
    | outside last =>
      simp only [Machine.step, Machine.stepCaller, hq] at h
      cases h
    | _ =>
      rw [hq] at hi
      cases hi
  · rw [callers_of_step h hcall fun o ho => hl ⟨o, ho⟩, hi]

/-- **What a failure leaves.** If an invalidation fails in the end, then no step of it has changed more than
it may. -/
theorem spares_of_run (hremove : ∀ {s e s'}, c.slot.remove s = (.error e, s') → s' = s) {e : CacheError}
    {u : Machine σ M} (hfailed : u.callers i = .done (.invalidated (.error e)))
    {ls : List (Machine.Label σ M)} (hcalls : ∀ l ∈ ls, ∀ call, l ≠ .call i call)
    (hrun : run (Machine.step c) m ls = some u) (hi : (m.callers i).isInvalidating = true) :
    Along (Machine.step c) (Machine.SparesAllButPending c i) m ls := by
  induction ls generalizing m with
  | nil => trivial
  | cons l ls ih =>
    rw [run_cons, Option.bind_eq_some_iff] at hrun
    obtain ⟨v, hv, hrest⟩ := hrun
    have hcalls' : ∀ k ∈ ls, ∀ call, k ≠ .call i call := fun k hk => hcalls k (List.mem_cons_of_mem l hk)
    refine along_cons ?_ hv
      (ih hcalls' hrest (isInvalidating_of_step hv (hcalls l List.mem_cons_self) hi))
    rintro o w rfl hw
    rw [hv, Option.some.injEq] at hw
    subst hw
    cases hq : m.callers i with
    | invalidating p =>
      rcases stepCaller_of_invalidating hv hq with ⟨p', s', hstep, rfl⟩ | ⟨result, rfl, rfl⟩
      · -- the invalidation has not gone well, for it has failed in the end
        have hp' : p'.verdict? ≠ some (.ok ()) := by
          intro hok
          have hend := verdict?_of_run hrest hcalls' (by rw [Machine.callers_move_self]; exact hok)
          rw [hfailed] at hend
          cases hend
        obtain ⟨hcancel, hother⟩ := Invalidation.spares hremove hstep hp'
        exact ⟨fun h => hcancel (Caller.invalidating.inj h), fun h => hother fun hp => h (by rw [hp])⟩
      · exact ⟨fun h => (by cases h), fun _ => rfl⟩
    | outside last =>
      simp only [Machine.step, Machine.stepCaller, hq] at hv
      cases hv
    | _ =>
      rw [hq] at hi
      cases hi

/-! ### The pending save -/

/-- While no save is pending, the writer sets out for none: all it can do is stop. -/
theorem Machine.finishing_of_decides {o : Outside} (hpending : m.shared.signal.pending = none)
    (hready : m.writer = .ready) (h : m.step c (.writer o) = some m') :
    m'.writer = .finishing (.shutdown false) := by
  simp only [Machine.step, Machine.stepWriter, hready] at h
  obtain ⟨⟨d, signal⟩, hd, rfl⟩ := Option.map_eq_some_iff.mp h
  obtain ⟨-, ⟨-, rfl⟩ | ⟨-, -, p, hp, -⟩⟩ := Flush.Signal.decide?_eq_some_iff.mp hd
  · rw [hpending]
    rfl
  · rw [hpending] at hp
    cases hp

/-- **What the first step of an invalidation loses.** After it no save is pending until one is requested, and
the writer sets out for none. -/
theorem stays_dropped {v m₂ u : Machine σ M} {o : Outside} {ls : List (Machine.Label σ M)}
    (hplace : v.callers i = .invalidating .cancel) (hfirst : v.step c (.caller i o) = some m₂)
    (hls : Along (Machine.step c) (fun m l => m.requests l = false) m₂ ls)
    (hrun : run (Machine.step c) m₂ ls = some u) :
    u.shared.signal.pending = none ∧
      ∀ o' w, u.writer = .ready → u.step c (.writer o') = some w →
        w.writer = .finishing (.shutdown false) := by
  have hdropped : m₂.shared.signal.pending = none := by
    rcases stepCaller_of_invalidating hfirst hplace with ⟨p', s', hstep, rfl⟩ | ⟨result, hp, -⟩
    · exact Invalidation.pending_eq_none hstep (.inl rfl)
    · cases hp
  have hpending : u.shared.signal.pending = none :=
    run_induction_along (P := fun u => u.shared.signal.pending = none) hrun hls hdropped
      fun _ _ _ hp hl hs => (turn_of_step hs).pending_eq_none hl hp
  exact ⟨hpending, fun _ _ hready hstep => Machine.finishing_of_decides hpending hready hstep⟩

/-! ### A failed invalidation -/

/-- A caller whose invalidation has failed is told so, or can go on to where it is. -/
theorem told_or_goes_on {e : CacheError} (hi : (m.callers i).isInvalidating = true)
    (hverdict : (m.callers i).verdict? = some (.error e)) :
    m.callers i = .done (.invalidated (.error e)) ∨ ∀ o, (m.step c (.caller i o)).isSome = true := by
  cases hq : m.callers i with
  | invalidating p =>
    rw [hq] at hverdict
    refine .inr fun o => ?_
    cases p with
    | leave result | done result => simp [Machine.step, Machine.stepCaller, hq, Invalidation.step]
    | forget | absolve => cases hverdict
    | _ => cases hverdict
  | outside last =>
    rw [hq] at hi hverdict
    rcases last with - | a
    · cases hi
    · cases a with
      | invalidated result =>
        cases hverdict
        exact .inl rfl
      | _ => cases hi
  | _ =>
    rw [hq] at hi
    cases hi

/-- **What a failed removal leads to.** Once the removal of the blob has failed, its error is what the
caller is told, and nothing keeps it from that. -/
theorem told_of_failed_removal {v u : Machine σ M} {o : Outside} {ls : List (Machine.Label σ M)}
    {e : CacheError}
    (hplace : v.callers i = .invalidating .remove)
    (hfail : (o.change c.slot.remove v.shared.slot).1 = .error e)
    (hcalls : ∀ l ∈ ls, ∀ call, l ≠ .call i call)
    (hrun : run (Machine.step c) v (.caller i o :: ls) = some u) :
    u.callers i = .done (.invalidated (.error e)) ∨
      (u.callers i).verdict? = some (.error e) ∧ ∀ o', (u.step c (.caller i o')).isSome = true := by
  rw [run_cons, Option.bind_eq_some_iff] at hrun
  obtain ⟨w, hw, hrest⟩ := hrun
  -- the removal settles the answer, and others leave it alone
  have hsettled : w.callers i = .invalidating (.leave (.error e)) := by
    rcases stepCaller_of_invalidating hw hplace with ⟨p', s', hstep, rfl⟩ | ⟨result, hp, -⟩
    · rw [Machine.callers_move_self]
      simp only [Invalidation.step] at hstep
      split at hstep <;> rename_i hr <;> cases hstep <;> rw [hr] at hfail <;> cases hfail
      rfl
    · cases hp
  have hverdict := verdict?_of_run hrest hcalls (by rw [hsettled]; rfl)
  have hi : (u.callers i).isInvalidating = true :=
    run_induction (P := fun u => (u.callers i).isInvalidating = true) hrest hcalls
      (by rw [hsettled]; rfl) fun _ _ _ hu hl hs => isInvalidating_of_step hs hl hu
  exact (told_or_goes_on hi hverdict).imp_right fun h => ⟨hverdict, h⟩

/-- A caller whose removal of the blob fails while nobody else does anything. -/
theorem run_failed_removal (hremove : ∀ {s e s'}, c.slot.remove s = (.error e, s') → s' = s) {o : Outside}
    {e : CacheError} (hload : m.shared.loadLane = none) (hwrite : m.shared.writeLane = none)
    (hfail : (o.change c.slot.remove m.shared.slot).1 = .error e) :
    run (Machine.step c) (m.move i (.invalidating .cancel) m.shared)
        [.caller i {}, .caller i {}, .caller i {}, .caller i o, .caller i {}, .caller i {}] =
      some (m.move i (.done (.invalidated (.error e)))
        { m.shared with signal := m.shared.signal.cancel.2 }) := by
  have hslot : o.change c.slot.remove m.shared.slot = (.error e, m.shared.slot) := by
    have hchange : o.change c.slot.remove m.shared.slot =
        (.error e, (o.change c.slot.remove m.shared.slot).2) := by rw [← hfail]
    rw [hchange, eq_of_failed_change hremove hchange]
  have halone : run (Invalidation.next c (.caller i)) (.cancel, m.shared) [{}, {}, {}, o, {}] =
      some (.done (.error e), { m.shared with signal := m.shared.signal.cancel.2 }) := by
    simp only [run_cons, run_nil, Invalidation.next, Invalidation.step, hload, hwrite, hslot,
      Option.isNone_none, if_true, Option.bind_some]
  have hsteps := run_invalidating m i halone
  -- at last it tells what came of it
  show run (Machine.step c) _ (List.map (.caller i) [{}, {}, {}, o, {}] ++ [.caller i {}]) = _
  rw [run_append, hsteps, Option.bind_some, run_singleton]
  simp only [Machine.step, Machine.stepCaller, Machine.callers_move_self, Machine.move_move]
  rfl

/-- **A failed invalidation.** A caller invalidates the cache and makes no other call meanwhile; others do
what they like.  If it is told an error, then its removal of the blob has failed with that error, and of all
its steps only the first one has changed anything but who holds the lanes: it has dropped the save that was
still pending then, if one was.  From this step on no save is pending until one is requested, and the writer
sets out for none.  Conversely, once its removal fails, that error is what it is told, and nothing keeps it
from that.  If both lanes are free and nobody else does anything, then the cache is in the end what it was
before, but without the pending save. -/
theorem failed_invalidation_spares_all_but_pending
    (hremove : ∀ {s e s'}, c.slot.remove s = (.error e, s') → s' = s) {m₀ m₁ : Machine σ M}
    (hcall : Machine.step c (.call i .invalidate) m₀ = some m₁) :
    (∀ ls u e, (∀ l ∈ ls, ∀ call, l ≠ .call i call) → run (Machine.step c) m₁ ls = some u →
        u.callers i = .done (.invalidated (.error e)) →
      FailsToRemove c i m₁ ls e ∧
        Along (Machine.step c) (Machine.SparesAllButPending c i) m₁ ls) ∧
    (∀ (v : Machine σ M) o m₂ ls u, v.callers i = .invalidating .cancel → v.step c (.caller i o) = some m₂ →
        Along (Machine.step c) (fun m l => m.requests l = false) m₂ ls →
        run (Machine.step c) m₂ ls = some u →
      u.shared.signal.pending = none ∧
        ∀ o' w, u.writer = .ready → u.step c (.writer o') = some w →
          w.writer = .finishing (.shutdown false)) ∧
    (∀ v o ls u e, v.callers i = .invalidating .remove →
        (o.change c.slot.remove v.shared.slot).1 = .error e → (∀ l ∈ ls, ∀ call, l ≠ .call i call) →
        run (Machine.step c) v (.caller i o :: ls) = some u →
      u.callers i = .done (.invalidated (.error e)) ∨
        (u.callers i).verdict? = some (.error e) ∧ ∀ o', (u.step c (.caller i o')).isSome = true) ∧
    ∀ o e, m₀.shared.loadLane = none → m₀.shared.writeLane = none →
        (o.change c.slot.remove m₀.shared.slot).1 = .error e →
      run (Machine.step c) m₁
          [.caller i {}, .caller i {}, .caller i {}, .caller i o, .caller i {}, .caller i {}] =
        some (m₁.move i (.done (.invalidated (.error e)))
          { m₀.shared with signal := m₀.shared.signal.cancel.2 }) := by
  have hm₁ : m₁ = m₀.move i (.invalidating .cancel) m₀.shared := by
    simp only [Machine.step] at hcall
    split at hcall <;> cases hcall
    rfl
  have hbegin : m₁.callers i = .invalidating .cancel := by rw [hm₁, Machine.callers_move_self]
  refine ⟨fun ls u e hcalls hrun hfailed => ⟨?_, ?_⟩, ?_, ?_, ?_⟩
  · exact failsToRemove_of_run hfailed hcalls hrun hbegin rfl
  · exact spares_of_run hremove hfailed hcalls hrun (by rw [hbegin]; rfl)
  · intro v o m₂ ls u hplace hfirst hls hrun
    exact stays_dropped hplace hfirst hls hrun
  · intro v o ls u e hplace hfail hcalls hrun
    exact told_of_failed_removal hplace hfail hcalls hrun
  · intro o e hload hwrite hfail
    rw [hm₁, run_failed_removal hremove hload hwrite hfail, Machine.move_move]

/-- What a caller is told whose removal fails. -/
def busy : CacheError := .internal "busy"

/-- A save is asked for; nothing has been written yet. -/
def pendingRun : List (Machine.Label MemorySlot Value) :=
  [.call 0 .schedule, .caller 0 {}, .caller 0 {}, .caller 0 {}]

/-- The steps of an invalidation whose removal fails. -/
def failedRemovalRun : List (Machine.Label MemorySlot Value) :=
  [.caller 0 {}, .caller 0 {}, .caller 0 {}, .caller 0 { fault := some busy }, .caller 0 {}, .caller 0 {}]

/-- An invalidation that fails while a save is pending, and nobody else does anything. -/
theorem failed_invalidation_spares_all_but_pending_busy :
    ∃ m₀ m₁ s, run (Machine.step textSetup) blankStart pendingRun = some m₀ ∧
      Machine.step textSetup (.call 0 .invalidate) m₀ = some m₁ ∧
      run (Machine.step textSetup) m₁ failedRemovalRun =
        some (m₁.move 0 (.done (.invalidated (.error busy))) s) ∧
      m₀.shared.signal.pending.isSome = true ∧
      s = { m₀.shared with signal := { m₀.shared.signal with pending := none } } :=
  ⟨_, _, _, rfl, rfl,
    (failed_invalidation_spares_all_but_pending (c := textSetup) (i := 0) (fun h => by cases h) rfl).2.2.2
      { fault := some busy } busy rfl rfl rfl, rfl, rfl⟩

/-- **A failure that loses a save.** A save is pending, and a caller invalidates the cache.  It is told
that the blob could not be removed, but the save is not pending any more, and unless somebody asks for
another one nothing is ever written. -/
theorem failed_invalidation_drops_pending :
    ∃ m₀ m₁ m₂, run (Machine.step textSetup) blankStart pendingRun = some m₀ ∧
      m₀.shared.signal.pending.isSome = true ∧
      Machine.step textSetup (.call 0 .invalidate) m₀ = some m₁ ∧
      run (Machine.step textSetup) m₁ failedRemovalRun = some m₂ ∧
      m₂.callers 0 = .done (.invalidated (.error busy)) ∧
      m₂.shared.signal.pending = none ∧ m₂.StaysEmpty textSetup (·.blob) := by
  refine ⟨_, _, _, rfl, rfl, rfl, rfl, rfl, rfl, staysEmpty_of_emptied (MemorySlot.lawful "memory") ?_ rfl⟩
  refine ⟨⟨rfl, fun j p hp => ?_, fun p hp => (by cases hp)⟩, rfl, fun a p hp => ?_⟩
  · by_cases hj : j = 0
    · rw [hj] at hp
      cases hp
    · simp [Machine.activity, Machine.move, goTo, hj, blankStart, Machine.start, Caller.activity] at hp
  · cases a with
    | writer => cases hp
    | caller j =>
      by_cases hj : j = 0
      · rw [hj] at hp
        cases hp
      · simp [Machine.activity, Machine.move, goTo, hj, blankStart, Machine.start, Caller.activity] at hp

end SnapStore.Cache
