import SnapStore.Proofs.Cache.Removal
import SnapStore.Proofs.Cache.FailedInvalidation

namespace SnapStore.Cache

/-!
# Loads after a load that failed

A load that cannot use the slot counts that, reports it and answers that there is nothing.  If the error is
one of the file system, the next load reads the slot again; otherwise the blob is marked as bad, and loads
have nothing to say until a save or an invalidation succeeds.

* `Visit` is what a load has done for its caller; `Visits` are those of a cache that goes on, with their
  answers.
* `Visit.Outcome` — the five ways in which a load can end.
* `Visits.All.step` — what every step of a load keeps holds of all visits.
* `Machine.IsMarked` — the blob is marked as bad, nothing is in memory, and no load is past the mark.
* `failures_are_reported_and_remembered` puts it together.
-/

variable {σ M : Type} {c : Setup σ M} {m m' : Machine σ M} {me : Actor} {o : Outside} {s s' : Shared σ M}
  {l : Machine.Label σ M}

/-! ### What a load has done -/

/-- What a load has done so far. -/
structure Visit where
  /-- How often it has read the slot. -/
  reads : Nat := 0
  /-- How often it has counted a snapshot that it found in memory. -/
  hits : Nat := 0
  /-- What has kept it from using the slot. -/
  errors : List CacheError := []
  /-- How many failures it has counted. -/
  counted : Nat := 0
  reported : List Diagnostic := []

/-- Whether the next step of a load reads the slot. -/
def Load.reads : Load M → Bool
  | .fetch => true
  | _ => false

/-- What a load has done after its next step. -/
def Visit.after (c : Setup σ M) (o : Outside) (p : Load M) (s s' : Shared σ M) (v : Visit) : Visit where
  reads := v.reads + p.reads.toNat
  hits := v.hits + (s'.stats.memoryHits - s.stats.memoryHits)
  errors := v.errors ++ ((p.verdict? c o none).map Verdict.error).toList
  counted := v.counted + (s'.stats.loadFailures - s.stats.loadFailures)
  reported := v.reported ++ ((Caller.loading p).report? c).toList

/-- How a load can end, and with which answer. -/
inductive Visit.Outcome (c : Setup σ M) : Visit → Option M → Prop
  | /-- There is a snapshot in memory. -/ hit (model : M) : Outcome c { hits := 1 } (some model)
  | /-- The blob is known to be bad. -/ marked : Outcome c {} none
  | /-- The slot is empty. -/ empty : Outcome c { reads := 1 } none
  | decoded (model : M) : Outcome c { reads := 1 } (some model)
  | failed (e : CacheError) : Outcome c
      { reads := 1, errors := [e], counted := 1, reported := [.ofLoadError c.slot.location e] } none

/-- What a load has done by the place where it stands. -/
def Load.Fits (c : Setup σ M) (v : Visit) : Load M → Prop
  | .peek | .enter | .recheck | .consult | .fetch => v = {}
  | .receive _ | .install .. | .publish .. => v = { reads := 1 }
  | .fail e | .complain e => v = { reads := 1, errors := [e] }
  | .leave result | .done result => v.Outcome c result

/-- **Every step keeps it** that a load has done what belongs to the place where it stands. -/
theorem Load.Fits.step {p p' : Load M} {v : Visit} (h : p.Fits c v)
    (hstep : p.step c me o s = some (p', s')) :
    p'.Fits c (v.after c o p s s') := by
  cases p with
  | peek | recheck =>
    obtain rfl : v = {} := h
    simp only [Load.step] at hstep
    split at hstep <;> rename_i hcurrent <;> cases hstep
    · simpa [Fits, Visit.after, Load.reads, Load.verdict?, Caller.report?, Stats.hit] using
        Visit.Outcome.hit _
    · simp [Fits, Visit.after, Load.reads, Load.verdict?, Caller.report?]
  | enter =>
    obtain rfl : v = {} := h
    simp only [Load.step] at hstep
    split at hstep <;> cases hstep
    simp [Fits, Visit.after, Load.reads, Load.verdict?, Caller.report?]
  | consult =>
    obtain rfl : v = {} := h
    simp only [Load.step] at hstep
    split at hstep <;> cases hstep
    · simpa [Fits, Visit.after, Load.reads, Load.verdict?, Caller.report?] using Visit.Outcome.marked
    · simp [Fits, Visit.after, Load.reads, Load.verdict?, Caller.report?]
  | fetch =>
    obtain rfl : v = {} := h
    cases hstep
    simp [Fits, Visit.after, Load.reads, Load.verdict?, Caller.report?]
  | receive found =>
    obtain rfl : v = { reads := 1 } := h
    simp only [Load.step] at hstep
    split at hstep <;> rename_i hfound
    · cases hstep
      simp [Fits, Visit.after, Load.reads, Load.verdict?, hfound, Caller.report?, Verdict.error]
    · cases hstep
      simpa [Fits, Visit.after, Load.reads, Load.verdict?, hfound, Caller.report?] using Visit.Outcome.empty
    · split at hstep <;> rename_i hdecode <;> cases hstep <;>
        simp [Fits, Visit.after, Load.reads, Load.verdict?, hfound, hdecode, Caller.report?, Verdict.error,
          Stats.loaded]
  | fail e =>
    obtain rfl : v = { reads := 1, errors := [e] } := h
    cases hstep
    split <;> simp [Fits, Visit.after, Load.reads, Load.verdict?, Caller.report?]
  | complain e =>
    obtain rfl : v = { reads := 1, errors := [e] } := h
    cases hstep
    simpa [Fits, Visit.after, Load.reads, Load.verdict?, Caller.report?, Stats.loadFailed] using
      Visit.Outcome.failed (c := c) (M := M) e
  | install header model =>
    obtain rfl : v = { reads := 1 } := h
    simp only [Load.step] at hstep
    split at hstep <;> cases hstep
    simp [Fits, Visit.after, Load.reads, Load.verdict?, Caller.report?]
  | publish header model =>
    obtain rfl : v = { reads := 1 } := h
    cases hstep
    simpa [Fits, Visit.after, Load.reads, Load.verdict?, Caller.report?] using Visit.Outcome.decoded _
  | leave result =>
    cases hstep
    simpa [Fits, Visit.after, Load.reads, Load.verdict?, Caller.report?] using h
  | done result => cases hstep

/-! ### All loads of a cache -/

/-- Whether a save has filled the slot, or an invalidation has emptied it, and it is about to say so. -/
def Activity.isSucceeding : Activity M → Bool
  | .save p => p.isCommitting
  | .invalidate p => p.isClearing
  | _ => false

/-- Whether a step is one of a thread that is doing a certain thing. -/
def Machine.isBy (kind : Activity M → Bool) (m : Machine σ M) : Label σ M → Bool
  | .caller i _ => kind (m.activity (.caller i))
  | .writer _ => kind (m.activity .writer)
  | _ => false

theorem Machine.isBy_of (kind : Activity M → Bool) (m : Machine σ M) (me : Actor) (o : Outside) :
    m.isBy kind (.of me o) = kind (m.activity me) := by
  cases me <;> rfl

theorem Machine.exists_of_isBy {kind : Activity M → Bool} (h : m.isBy kind l = true) :
    ∃ me o, l = .of me o ∧ kind (m.activity me) = true := by
  cases l with
  | caller i o => exact ⟨.caller i, o, rfl, h⟩
  | writer o => exact ⟨.writer, o, rfl, h⟩
  | call | host | stranger => cases h

theorem Activity.exists_of_isMarking {a : Activity M} (h : a.isMarking = true) :
    ∃ e, a = .load (.fail e) := by
  cases a with
  | load p =>
    cases p with
    | fail e => exact ⟨e, rfl⟩
    | _ => cases h
  | _ => cases h

/-- A cache with what its loads do from their call to their answer. -/
structure Visits (σ M : Type) where
  machine : Machine σ M
  /-- What has been done so far for the last call of a caller, if that is on record. -/
  visit : ThreadId → Option Visit := fun _ => none
  /-- The loads that have been answered, with their answers. -/
  told : List (Visit × Option M) := []
  /-- How often a load has marked the blob as bad. -/
  marks : Nat := 0
  /-- How many steps saves and invalidations have taken to settle that they have succeeded. -/
  successes : Nat := 0

namespace Visits

/-- What is entered when a load goes on: what it has done, if its caller has been told. -/
def answered? : Option Visit → Caller M → Option (Visit × Option M)
  | some v, .outside (some (.loaded result)) => some (v, result)
  | _, _ => none

/-- What a caller has done for its load when it has gone on; there is nothing to say if it is not loading. -/
def next (c : Setup σ M) (o : Outside) (w : Visits σ M) (machine : Machine σ M) (i : ThreadId) :
    Option Visit :=
  match w.machine.callers i with
  | .loading p => (w.visit i).map (Visit.after c o p w.machine.shared machine.shared)
  | _ => none

/-- One step of one thread, or a change from elsewhere. -/
def step (c : Setup σ M) (l : Machine.Label σ M) (w : Visits σ M) : Option (Visits σ M) :=
  (w.machine.step c l).map fun machine => {
    machine
    visit := match l with
      | .call i _ => goTo w.visit i (some {})
      | .caller i o => goTo w.visit i (w.next c o machine i)
      | _ => w.visit
    told := match l with
      | .caller i o => w.told ++ (answered? (w.next c o machine i) (machine.callers i)).toList
      | _ => w.told
    marks := w.marks + (w.machine.isBy Activity.isMarking l).toNat
    successes := w.successes + (w.machine.isBy Activity.isSucceeding l).toNat }

/-- A cache none of whose loads so far is on record. -/
def of (machine : Machine σ M) : Visits σ M where
  machine

/-- The record only looks on: every run of the cache is a run of the record. -/
theorem exists_run {w : Visits σ M} {ls : List (Machine.Label σ M)}
    (h : run (Machine.step c) w.machine ls = some m) :
    ∃ v, run (Visits.step c) w ls = some v ∧ v.machine = m := by
  refine exists_run_of_run (fun l w => ?_) h
  rw [Visits.step, Option.map_map]
  exact Option.map_id' ..

theorem machine_step {w u : Visits σ M} (h : w.step c l = some u) : w.machine.step c l = some u.machine := by
  obtain ⟨m, hm, rfl⟩ := Option.map_eq_some_iff.mp h
  exact hm

/-- What has not been done by now was not done before, and is not done by this step. -/
theorem isBy_of_step {w u : Visits σ M} (h : w.step c l = some u) :
    (u.marks = 0 → w.marks = 0 ∧ w.machine.isBy Activity.isMarking l = false) ∧
      (u.successes = 0 → w.successes = 0 ∧ w.machine.isBy Activity.isSucceeding l = false) := by
  obtain ⟨m, hm, rfl⟩ := Option.map_eq_some_iff.mp h
  refine ⟨fun hnone => ?_, fun hnone => ?_⟩
  · obtain ⟨hw, hl⟩ := Nat.add_eq_zero_iff.mp hnone
    exact ⟨hw, Bool.toNat_eq_zero.mp hl⟩
  · obtain ⟨hw, hl⟩ := Nat.add_eq_zero_iff.mp hnone
    exact ⟨hw, Bool.toNat_eq_zero.mp hl⟩

/-- A property of all loads on record: of those that are on their way, and of those that have been
answered. -/
structure All (P : Visit → Load M → Prop) (w : Visits σ M) : Prop where
  loads : ∀ i v p, w.visit i = some v → w.machine.callers i = .loading p → P v p
  told : ∀ v result, (v, result) ∈ w.told → P v (.done result)

theorem all_of (P : Visit → Load M → Prop) (m : Machine σ M) : (of m).All P where
  loads _ _ _ h := by cases h
  told _ _ h := by cases h

/-- A caller that is loading takes the next step of its load, or is told what it has come to. -/
theorem stepCaller_of_loading {i : ThreadId} {p : Load M} (h : m.stepCaller c i o = some m')
    (hi : m.callers i = .loading p) :
    (∃ p' s', p.step c (.caller i) o m.shared = some (p', s') ∧ m' = m.move i (.loading p') s') ∨
      ∃ result, p = .done result ∧ m' = m.move i (.done (.loaded result)) m.shared := by
  simp only [Machine.stepCaller, hi] at h
  cases p with
  | done result =>
    cases h
    exact .inr ⟨result, rfl, rfl⟩
  | _ =>
    obtain ⟨⟨p', s'⟩, hp, rfl⟩ := Option.map_eq_some_iff.mp h
    exact .inl ⟨p', s', hp, rfl⟩

/-- What every step of a load keeps of it holds of the load of a caller that has gone on, wherever it has
got to. -/
theorem All.of_next {P : Visit → Load M → Prop} {w : Visits σ M} (h : w.All P)
    (hnext : ∀ me o p p' s' v, P v p → p.step c me o w.machine.shared = some (p', s') →
      P (v.after c o p w.machine.shared s') p') {i : ThreadId} (hm : w.machine.stepCaller c i o = some m)
    {v : Visit} (hv : w.next c o m i = some v) :
    (∀ p, m.callers i = .loading p → P v p) ∧
      ∀ result, m.callers i = .outside (some (.loaded result)) → P v (.done result) := by
  simp only [next] at hv
  split at hv
  · rename_i p hi
    obtain ⟨before, hbefore, rfl⟩ := Option.map_eq_some_iff.mp hv
    have hp := h.loads i before p hbefore hi
    rcases stepCaller_of_loading hm hi with ⟨p', s', hload, rfl⟩ | ⟨result, rfl, rfl⟩
    · have hp' := hnext _ _ _ _ _ _ hp hload
      rw [Machine.callers_move_self]
      exact ⟨fun q hq => by cases hq; exact hp', fun result hq => by cases hq⟩
    · have hsame : before.after c o (Load.done result) w.machine.shared w.machine.shared = before := by
        simp [Visit.after, Load.reads, Load.verdict?, Caller.report?]
      rw [Machine.callers_move_self]
      exact ⟨fun q hq => (by cases hq), fun r hr => by cases hr; exact hsame.symm ▸ hp⟩
  · cases hv

/-- **Every step keeps** of all loads what every step of a load keeps of it. -/
theorem All.step {P : Visit → Load M → Prop} {w u : Visits σ M} (h : w.All P) (hstart : P {} .peek)
    (hnext : ∀ me o p p' s' v, P v p → p.step c me o w.machine.shared = some (p', s') →
      P (v.after c o p w.machine.shared s') p') (hstep : w.step c l = some u) : u.All P := by
  obtain ⟨m, hm, rfl⟩ := Option.map_eq_some_iff.mp hstep
  cases l with
  | call i call =>
    simp only [Machine.step] at hm
    split at hm <;> cases hm
    refine ⟨fun j v p hv hp => ?_, h.told⟩
    replace hv : goTo w.visit i (some {}) j = some v := hv
    replace hp : goTo w.machine.callers i (.start call) j = .loading p := hp
    by_cases hj : j = i
    · rw [hj, goTo_self, Option.some.injEq] at hv
      rw [hj, goTo_self] at hp
      cases call <;> cases hp
      rw [← hv]
      exact hstart
    · rw [goTo_of_ne _ _ hj] at hv hp
      exact h.loads j v p hv hp
  | caller i o =>
    have hself (v : Visit) (hv : w.next c o m i = some v) := h.of_next hnext hm hv
    refine ⟨fun j v p hv hp => ?_, fun v result hmem => ?_⟩
    · replace hv : goTo w.visit i (w.next c o m i) j = some v := hv
      by_cases hj : j = i
      · rw [hj, goTo_self] at hv
        exact (hself v hv).1 p (by rw [← hj]; exact hp)
      · have hothers : m.callers j = w.machine.callers j :=
          callers_of_step hm (fun _ hl => by cases hl) fun _ hl => by cases hl; exact hj rfl
        rw [goTo_of_ne _ _ hj] at hv
        exact h.loads j v p hv (by rw [← hothers]; exact hp)
    · rcases List.mem_append.mp hmem with hmem | hmem
      · exact h.told v result hmem
      · cases hvisit : w.next c o m i with
        | none =>
          rw [hvisit] at hmem
          cases hmem
        | some v' =>
          rw [hvisit, Option.mem_toList] at hmem
          cases hanswer : m.callers i with
          | outside last =>
            rw [hanswer] at hmem
            rcases last with _ | ⟨_ | _⟩ <;> cases hmem
            exact (hself v hvisit).2 result hanswer
          | _ =>
            rw [hanswer] at hmem
            cases hmem
  | writer o =>
    have hsame : m.callers = w.machine.callers := callers_of_stepWriter hm
    exact ⟨fun j v p hv hp => h.loads j v p hv (by rw [← hsame]; exact hp), h.told⟩
  | host holder | stranger slot =>
    cases hm
    exact ⟨h.loads, h.told⟩

end Visits

/-! ### The mark -/

/-- Whether a load has been let through to the slot, and has not said what came of it. -/
def Load.isThrough : Load M → Bool
  | .fetch | .receive _ | .fail _ | .install .. | .publish .. => true
  | _ => false

theorem Load.holdsLoad_of_isThrough {p : Load M} (h : p.isThrough = true) : p.holdsLoad = true := by
  cases p <;> first | rfl | cases h

/-- A load changes the mark only if it is about to set it. -/
theorem Load.knownBad_eq {p p' : Load M} (h : p.step c me o s = some (p', s')) (hp : p.isMarking = false) :
    s'.knownBad = s.knownBad := by
  cases p with
  | peek | enter | recheck | install =>
    simp only [Load.step] at h
    split at h <;> cases h <;> rfl
  | receive found =>
    simp only [Load.step] at h
    split at h
    · cases h
      rfl
    · cases h
      rfl
    · split at h <;> cases h <;> rfl
  | consult | fetch | complain | publish | leave =>
    cases h
    rfl
  | fail e =>
    have hio : e.isIo = true := by simpa [isMarking] using hp
    simp only [Load.step, hio, if_true] at h
    cases h
    rfl
  | done result => cases h

/-- A save does not set the mark, and leaves it and the memory alone unless it has succeeded. -/
theorem Save.knownBad_eq {p p' : Save M} (h : p.step c me o s = some (p', s')) :
    (s.knownBad = false → s'.knownBad = false) ∧
      (p.isCommitting = false → s'.knownBad = s.knownBad ∧ s'.current = s.current) := by
  cases p with
  | enter | capture | seed | receive | encode | write =>
    simp only [Save.step] at h
    split at h <;> cases h <;> exact ⟨id, fun _ => ⟨rfl, rfl⟩⟩
  | commit | publish =>
    cases h
    refine ⟨?_, fun hp => by cases hp⟩
    first | exact fun _ => rfl | exact id
  | record | leave =>
    cases h
    exact ⟨id, fun _ => ⟨rfl, rfl⟩⟩
  | done result => cases h

/-- An invalidation does not set the mark, and leaves it and the memory alone unless it has succeeded. -/
theorem Invalidation.knownBad_eq {p p' : Invalidation} (h : p.step c me o s = some (p', s')) :
    (s.knownBad = false → s'.knownBad = false) ∧
      (p.isClearing = false → s'.knownBad = s.knownBad ∧ s'.current = s.current) := by
  cases p with
  | enterLoad | enterWrite | remove =>
    simp only [Invalidation.step] at h
    split at h <;> cases h <;> exact ⟨id, fun _ => ⟨rfl, rfl⟩⟩
  | forget | absolve =>
    cases h
    refine ⟨?_, fun hp => by cases hp⟩
    first | exact fun _ => rfl | exact id
  | cancel | leave =>
    cases h
    exact ⟨id, fun _ => ⟨rfl, rfl⟩⟩
  | done result => cases h

/-- Nobody sets the mark but a load that is about to do so. -/
theorem Turn.knownBad_eq_false (turn : Turn c m m' l) (hl : m.isBy Activity.isMarking l = false)
    (h : m.shared.knownBad = false) : m'.shared.knownBad = false := by
  cases turn with
  | load me o p p' was now others step =>
    rw [Machine.isBy_of, was] at hl
    rw [Load.knownBad_eq step hl, h]
  | save me o p p' was now others step => exact (Save.knownBad_eq step).1 h
  | invalidate me o p p' was now others step => exact (Invalidation.knownBad_eq step).1 h
  | begin i call last was eq =>
    rw [eq]
    exact h
  | edge me o was others core aside => rw [core.knownBad, h]
  | host holder same shared_eq | stranger slot same shared_eq =>
    rw [shared_eq]
    exact h

/-- Loads are let through to the slot while there is no mark. -/
theorem Load.isThrough_of_step {p p' : Load M} (h : p.step c me o s = some (p', s'))
    (hp' : p'.isThrough = true) :
    p.isThrough = true ∨ s.knownBad = false := by
  cases p with
  | peek | enter | recheck =>
    simp only [Load.step] at h
    split at h <;> cases h <;> cases hp'
  | consult =>
    simp only [Load.step] at h
    split at h <;> rename_i hbad <;> cases h
    · cases hp'
    · exact .inr (Bool.eq_false_iff.mpr hbad)
  | complain | leave =>
    cases h
    cases hp'
  | fetch | receive | fail | install | publish => exact .inl rfl
  | done result => cases h

/-- While a load has been let through, there is no mark. -/
def Machine.Unmarked (m : Machine σ M) : Prop :=
  ∀ a p, m.activity a = .load p → p.isThrough = true → m.shared.knownBad = false

/-- What a load does that has failed: it sets the mark unless the error is one of the file system. -/
theorem Turn.of_fail {e : CacheError} (turn : Turn c m m' (.of me o))
    (was : m.activity me = .load (.fail e)) :
    m'.activity me = .load (.complain e) ∧
      m'.shared = if e.isIo then m.shared else { m.shared with knownBad := true } := by
  generalize hl : Machine.Label.of me o = l at turn
  cases turn with
  | load a o' p p' was' now others step =>
    obtain rfl := Machine.Label.of_inj hl
    rw [was] at was'
    cases was'
    simp only [Load.step, Option.some.injEq, Prod.mk.injEq] at step
    rw [now, ← step.1, ← step.2]
    exact ⟨rfl, rfl⟩
  | save a o' p p' was' | invalidate a o' p p' was' =>
    obtain rfl := Machine.Label.of_inj hl
    rw [was] at was'
    cases was'
  | edge a o' was' =>
    obtain rfl := Machine.Label.of_inj hl
    rw [was] at was'
    cases was'
  | begin i call | host holder | stranger slot => cases me <;> cases hl

/-- **Every step keeps it** that there is no mark while a load has been let through. -/
theorem Machine.Unmarked.turn (h : m.Unmarked) (lanes : m.Lanes) (turn : Turn c m m' l) : m'.Unmarked := by
  intro a p hp hthrough
  have hbefore : m.shared.knownBad = false := by
    cases turn.course a with
    | same eq => exact h a p (by rw [← eq, hp]) hthrough
    | load o q q' label was now step =>
      rw [hp] at now
      cases now
      rcases Load.isThrough_of_step step hthrough with hq | hbad
      · exact h a q was hq
      · exact hbad
    | save o q q' label was now | invalidate o q q' label was now =>
      rw [hp] at now
      cases now
    | begin i call label was now =>
      rw [hp] at now
      cases call <;> cases now
      cases hthrough
    | edge o label was aside =>
      have hedge := aside.isAtEdge
      rw [hp] at hedge
      cases p <;> first | exact absurd hthrough Bool.false_ne_true | exact absurd hedge Bool.false_ne_true
  refine turn.knownBad_eq_false (Bool.eq_false_iff.mpr fun hmarks => ?_) hbefore
  obtain ⟨b, o, rfl, hb⟩ := Machine.exists_of_isBy hmarks
  obtain ⟨e, hb⟩ := Activity.exists_of_isMarking hb
  -- whoever sets the mark has the load lane in hand, so that nobody else has been let through
  by_cases ha : a = b
  · rw [ha, (turn.of_fail hb).1] at hp
    cases hp
    cases hthrough
  · rw [turn.others ha] at hp
    refine ha (lanes.apart.load a b ?_ ?_)
    · rw [hp]
      exact Load.holdsLoad_of_isThrough hthrough
    · rw [hb]
      rfl

theorem Machine.unmarked_of_reachable {slot : σ} {holder : Holder M} {reports : Reports}
    (h : Reachable (Machine.step c) (Machine.start slot holder reports) m) : m.Lanes ∧ m.Unmarked := by
  refine h.induction (P := fun m => m.Lanes ∧ m.Unmarked) ⟨Machine.lanes_start slot holder reports, ?_⟩ ?_
  · intro a p hp
    cases a <;> cases hp
  · intro t l u ⟨lanes, ht⟩ hu
    exact ⟨lanes.turn (turn_of_step hu), ht.turn lanes (turn_of_step hu)⟩

/-- The blob is marked as bad, nothing is in memory, and no load has been let through to the slot. -/
structure Machine.IsMarked (m : Machine σ M) : Prop where
  knownBad : m.shared.knownBad = true
  current : m.shared.current = none
  loads : ∀ a p, m.activity a = .load p → p.isThrough = false

/-- A load that finds the mark and nothing in memory is not let through, and changes neither. -/
theorem Load.isThrough_eq_false {p p' : Load M} (h : p.step c me o s = some (p', s'))
    (hbad : s.knownBad = true) (hnone : s.current = none) (hp : p.isThrough = false) :
    p'.isThrough = false ∧ s'.knownBad = true ∧ s'.current = none := by
  cases p with
  | peek | recheck =>
    simp only [Load.step, hnone, Option.some.injEq, Prod.mk.injEq] at h
    obtain ⟨rfl, rfl⟩ := h
    exact ⟨rfl, hbad, hnone⟩
  | enter =>
    simp only [Load.step] at h
    split at h <;> cases h
    exact ⟨rfl, hbad, hnone⟩
  | consult =>
    simp only [Load.step, hbad, if_true, Option.some.injEq, Prod.mk.injEq] at h
    obtain ⟨rfl, rfl⟩ := h
    exact ⟨rfl, hbad, hnone⟩
  | complain | leave =>
    cases h
    exact ⟨rfl, hbad, hnone⟩
  | fetch | receive | fail | install | publish => cases hp
  | done result => cases h

/-- **The mark stays** until a save or an invalidation succeeds. -/
theorem Machine.IsMarked.turn (h : m.IsMarked) (hl : m.isBy Activity.isSucceeding l = false)
    (turn : Turn c m m' l) :
    m'.IsMarked := by
  have hkeeps (hbad : m'.shared.knownBad = m.shared.knownBad)
      (hcurrent : m'.shared.current = m.shared.current)
      (hloads : ∀ a p, m'.activity a = .load p → m.activity a = .load p ∨ p.isThrough = false) :
      m'.IsMarked := by
    refine ⟨by rw [hbad, h.knownBad], by rw [hcurrent, h.current], fun a p hp => ?_⟩
    rcases hloads a p hp with hp | hp
    · exact h.loads a p hp
    · exact hp
  cases turn with
  | load me o p p' was now others step =>
    obtain ⟨hthrough, hbad, hnone⟩ := Load.isThrough_eq_false step h.knownBad h.current (h.loads me p was)
    refine ⟨hbad, hnone, fun a q hq => ?_⟩
    by_cases ha : a = me
    · rw [ha, now] at hq
      cases hq
      exact hthrough
    · exact h.loads a q (by rw [← others a ha, hq])
  | save me o p p' was now others step =>
    rw [Machine.isBy_of, was] at hl
    obtain ⟨hbad, hcurrent⟩ := (Save.knownBad_eq step).2 hl
    refine hkeeps hbad hcurrent fun a q hq => .inl ?_
    by_cases ha : a = me
    · rw [ha, now] at hq
      cases hq
    · rw [← others a ha, hq]
  | invalidate me o p p' was now others step =>
    rw [Machine.isBy_of, was] at hl
    obtain ⟨hbad, hcurrent⟩ := (Invalidation.knownBad_eq step).2 hl
    refine hkeeps hbad hcurrent fun a q hq => .inl ?_
    by_cases ha : a = me
    · rw [ha, now] at hq
      cases hq
    · rw [← others a ha, hq]
  | begin i call last was eq =>
    subst eq
    refine hkeeps rfl rfl fun a q hq => ?_
    by_cases ha : a = .caller i
    · rw [ha, Machine.activity_move_self] at hq
      cases call <;> cases hq
      exact .inr rfl
    · rw [Machine.activity_move_of_ne m _ _ ha] at hq
      exact .inl hq
  | edge me o was others core aside =>
    refine hkeeps core.knownBad core.current fun a q hq => ?_
    by_cases ha : a = me
    · have hedge := aside.isAtEdge
      rw [← ha, hq] at hedge
      cases q <;> first | exact .inr rfl | cases hedge
    · exact .inl (by rw [← others a ha, hq])
  | host holder same shared_eq | stranger slot same shared_eq =>
    refine hkeeps (by rw [shared_eq]) (by rw [shared_eq]) fun a q hq => .inl ?_
    rw [← same, hq]

/-! ### Loads after the failure -/

/-- Whether a load has looked for a snapshot for the last time: in the slot, or in memory. -/
def Load.hasLooked : Load M → Bool
  | .peek | .enter | .recheck | .consult | .fetch => false
  | _ => true

/-- A load that finds no mark has read the slot or found a snapshot in memory when it has looked. -/
theorem Load.looks_of_step {p p' : Load M} {v : Visit} (h : p.step c me o s = some (p', s'))
    (hbad : s.knownBad = false) (hv : v.reads + v.hits = p.hasLooked.toNat) :
    (v.after c o p s s').reads + (v.after c o p s s').hits = p'.hasLooked.toNat := by
  cases p with
  | peek | recheck =>
    simp only [Load.step] at h
    split at h <;> cases h
    · simp only [Visit.after, reads, hasLooked, Stats.hit, Bool.toNat_false, Bool.toNat_true] at hv ⊢
      omega
    · simpa [Visit.after, reads, hasLooked] using hv
  | enter | install =>
    simp only [Load.step] at h
    split at h <;> cases h
    simpa [Visit.after, reads, hasLooked] using hv
  | consult =>
    simp only [Load.step, hbad, Bool.false_eq_true, if_false, Option.some.injEq, Prod.mk.injEq] at h
    obtain ⟨rfl, rfl⟩ := h
    simpa [Visit.after, reads, hasLooked] using hv
  | fetch =>
    cases h
    simp only [Visit.after, reads, hasLooked, Bool.toNat_false, Bool.toNat_true] at hv ⊢
    omega
  | receive found =>
    simp only [Load.step] at h
    split at h
    · cases h
      simpa [Visit.after, reads, hasLooked] using hv
    · cases h
      simpa [Visit.after, reads, hasLooked] using hv
    · split at h <;> cases h <;> simpa [Visit.after, reads, hasLooked, Stats.loaded] using hv
  | fail e =>
    cases h
    split <;> simpa [Visit.after, reads, hasLooked] using hv
  | complain | publish | leave =>
    cases h
    simpa [Visit.after, reads, hasLooked, Stats.loadFailed] using hv
  | done result => cases h

/-- Whether a load has found nothing, and will say so. -/
def Load.isIdle : Load M → Bool
  | .peek | .enter | .recheck | .consult | .leave none | .done none => true
  | _ => false

/-- A load that finds the mark and nothing in memory does nothing. -/
theorem Load.idle_of_step {p p' : Load M} {v : Visit} (h : p.step c me o s = some (p', s'))
    (hbad : s.knownBad = true) (hnone : s.current = none) (hv : v = {} ∧ p.isIdle = true) :
    v.after c o p s s' = {} ∧ p'.isIdle = true := by
  obtain ⟨rfl, hp⟩ := hv
  cases p with
  | peek | recheck =>
    simp only [Load.step, hnone, Option.some.injEq, Prod.mk.injEq] at h
    obtain ⟨rfl, rfl⟩ := h
    exact ⟨by simp [Visit.after, reads, verdict?, Caller.report?], rfl⟩
  | enter =>
    simp only [Load.step] at h
    split at h <;> cases h
    exact ⟨by simp [Visit.after, reads, verdict?, Caller.report?], rfl⟩
  | consult =>
    simp only [Load.step, hbad, if_true, Option.some.injEq, Prod.mk.injEq] at h
    obtain ⟨rfl, rfl⟩ := h
    exact ⟨by simp [Visit.after, reads, verdict?, Caller.report?], rfl⟩
  | leave result =>
    cases h
    exact ⟨by simp [Visit.after, reads, verdict?, Caller.report?], by cases result <;> exact hp⟩
  | fetch | receive | fail | complain | install | publish => cases hp
  | done result => cases h

/-! ### The result -/

section Runs

variable {w : Visits σ M} {ls : List (Machine.Label σ M)}

theorem Visits.all_of_run {P : Visit → Load M → Prop} (hstart : P {} .peek)
    (hnext : ∀ me o (s s' : Shared σ M) p p' v, P v p → p.step c me o s = some (p', s') →
      P (v.after c o p s s') p') (hrun : run (Visits.step c) (.of m) ls = some w) : w.All P :=
  run_induction (Q := fun _ => True) hrun (fun _ _ => trivial) (Visits.all_of P m)
    fun _ _ _ hw _ hstep => hw.step hstart (fun me o p p' s' v hp h => hnext me o _ s' p p' v hp h) hstep

/-- As long as no load sets the mark, every load reads the slot or finds a snapshot in memory. -/
theorem Visits.looks_of_run (hbad : m.shared.knownBad = false)
    (hrun : run (Visits.step c) (.of m) ls = some w) (hmarks : w.marks = 0) :
    ∀ v result, (v, result) ∈ w.told → v.reads + v.hits = 1 := by
  have hall : w.marks = 0 → w.machine.shared.knownBad = false ∧
      w.All fun v p => v.reads + v.hits = p.hasLooked.toNat := by
    refine run_induction (Q := fun _ => True) (P := fun w : Visits σ M => w.marks = 0 →
      w.machine.shared.knownBad = false ∧ w.All fun v p => v.reads + v.hits = p.hasLooked.toNat) hrun
      (fun _ _ => trivial) (fun _ => ⟨hbad, Visits.all_of _ m⟩) ?_
    intro w l u hw _ hstep hnone
    obtain ⟨hbefore, hl⟩ := (Visits.isBy_of_step hstep).1 hnone
    obtain ⟨hbad, hall⟩ := hw hbefore
    refine ⟨(turn_of_step (Visits.machine_step hstep)).knownBad_eq_false hl hbad, ?_⟩
    exact hall.step rfl (fun _ _ _ _ _ _ hv h => Load.looks_of_step h hbad hv) hstep
  intro v result hmem
  exact (hall hmarks).2.told v result hmem

/-- As long as no save and no invalidation succeeds, the mark keeps all loads from doing anything. -/
theorem Visits.idle_of_run (hm : m.IsMarked) (hrun : run (Visits.step c) (.of m) ls = some w)
    (hsuccesses : w.successes = 0) :
    w.machine.IsMarked ∧ ∀ v result, (v, result) ∈ w.told → v = {} ∧ result = none := by
  have hall : w.successes = 0 → w.machine.IsMarked ∧ w.All fun v p => v = {} ∧ p.isIdle = true := by
    refine run_induction (Q := fun _ => True) (P := fun w : Visits σ M => w.successes = 0 →
      w.machine.IsMarked ∧ w.All fun v p => v = {} ∧ p.isIdle = true) hrun (fun _ _ => trivial)
      (fun _ => ⟨hm, Visits.all_of _ m⟩) ?_
    intro w l u hw _ hstep hnone
    obtain ⟨hbefore, hl⟩ := (Visits.isBy_of_step hstep).2 hnone
    obtain ⟨hm, hall⟩ := hw hbefore
    refine ⟨hm.turn hl (turn_of_step (Visits.machine_step hstep)), ?_⟩
    exact hall.step ⟨rfl, rfl⟩ (fun _ _ _ _ _ _ hv h => Load.idle_of_step h hm.knownBad hm.current hv) hstep
  obtain ⟨hmarked, hvisits⟩ := hall hsuccesses
  refine ⟨hmarked, fun v result hmem => ?_⟩
  obtain ⟨hv, hidle⟩ := hvisits.told v result hmem
  cases result with
  | none => exact ⟨hv, rfl⟩
  | some model => cases hidle

end Runs

/-- A load that has failed with an error that is not one of the file system marks the blob. -/
theorem Turn.isMarked_of_fail {e : CacheError} (lanes : m.Lanes) (turn : Turn c m m' (.of me o))
    (was : m.activity me = .load (.fail e)) (hio : e.isIo = false) (hnone : m.shared.current = none) :
    m'.IsMarked := by
  obtain ⟨now, hshared⟩ := turn.of_fail was
  rw [hio] at hshared
  refine ⟨by rw [hshared]; rfl, by rw [hshared]; exact hnone, fun a p hp => ?_⟩
  by_cases ha : a = me
  · rw [ha, now] at hp
    cases hp
    rfl
  · -- nobody else has the load lane
    rw [turn.others ha] at hp
    refine Bool.eq_false_iff.mpr fun hthrough => ha ?_
    exact lanes.apart.load a me (by rw [hp]; exact Load.holdsLoad_of_isThrough hthrough) (by rw [was]; rfl)

/-- A load that has failed never waits: it sets the mark or not, counts, reports, and answers. -/
theorem exists_run_of_fail {i : ThreadId} {e : CacheError} (hi : m.callers i = .loading (.fail e))
    {os : List Outside} (hos : os.length = 4) : ∃ w, run (Machine.step c) m (os.map (.caller i)) = some w ∧
      w.callers i = .done (.loaded none) ∧ w.shared.stats = m.shared.stats.loadFailed ∧
        w.shared.reports = m.shared.reports.add c.sink (.ofLoadError c.slot.location e) := by
  match os, hos with
  | [_, _, _, _], _ =>
    simp only [List.map_cons, List.map_nil, run_cons, run_nil, Machine.step, Machine.stepCaller, hi,
      Machine.callers_move_self, Load.step, Option.map_some, Option.bind_some]
    refine ⟨_, rfl, Machine.callers_move_self .., ?_⟩
    cases e.isIo <;> exact ⟨rfl, rfl⟩

/-- **After a load that failed.** Every load ends in one of five ways; if it has failed, it has counted that
once, reported it once and found nothing, and it has not had to wait for anybody to do so.  After an error
of the file system, which is always reported as a failed read, all loads read the slot again unless they
find a snapshot in memory, until one of them marks the blob.  After any other error, and in particular after
all that are reported as something else than a failed read, all loads find nothing, and neither read nor
count nor report anything, until a save or an invalidation succeeds.  A blob that does not decode is never
reported as a failed read. -/
theorem failures_are_reported_and_remembered {slot : σ} {holder : Holder M} {reports : Reports}
    (hm : Reachable (Machine.step c) (.start slot holder reports) m) :
    (∀ ls w v result, run (Visits.step c) (.of m) ls = some w → (v, result) ∈ w.told → v.Outcome c result) ∧
      (∀ i e (os : List Outside), m.callers i = .loading (.fail e) → os.length = 4 →
        ∃ w, run (Machine.step c) m (os.map (.caller i)) = some w ∧ w.callers i = .done (.loaded none) ∧
          w.shared.stats = m.shared.stats.loadFailed ∧
          w.shared.reports = m.shared.reports.add c.sink (.ofLoadError c.slot.location e)) ∧
      (∀ a o e m' ls w, m.activity a = .load (.fail e) → m.step c (.of a o) = some m' →
        run (Visits.step c) (.of m') ls = some w →
        (e.isIo = true → w.marks = 0 → ∀ v result, (v, result) ∈ w.told → v.reads + v.hits = 1) ∧
        (e.isIo = false → m.shared.current = none → w.successes = 0 →
          w.machine.shared.knownBad = true ∧ w.machine.shared.current = none ∧
          ∀ v result, (v, result) ∈ w.told → v = {} ∧ result = none)) ∧
      (∀ e, (e.isIo = true → Trouble.ofLoadError e = .readFailed) ∧
        (Trouble.ofLoadError e ≠ .readFailed → e.isIo = false)) ∧
      ∀ blob e, Snapshot.decode c.codec c.modelVersion blob = .error e →
      Trouble.ofLoadError e ≠ .readFailed := by
  obtain ⟨lanes, hunmarked⟩ := Machine.unmarked_of_reachable hm
  refine ⟨?_, ?_, ?_, ?_, ?_⟩
  · intro ls w v result hrun hmem
    have hall := Visits.all_of_run (P := fun v p => p.Fits c v) rfl
      (fun _ _ _ _ _ _ _ hv h => hv.step h) hrun
    exact hall.told v result hmem
  · intro i e os hi hos
    exact exists_run_of_fail hi hos
  · intro a o e m' ls w was hstep hrun
    have turn := turn_of_step hstep
    refine ⟨fun hio hmarks => ?_, fun hio hnone hsuccesses => ?_⟩
    · have hbad : m'.shared.knownBad = false := by
        rw [(turn.of_fail was).2, hio]
        exact hunmarked a _ was rfl
      exact Visits.looks_of_run hbad hrun hmarks
    · obtain ⟨hmarked, htold⟩ := Visits.idle_of_run
        (turn.isMarked_of_fail lanes was hio hnone) hrun hsuccesses
      exact ⟨hmarked.knownBad, hmarked.current, htold⟩
  · intro e
    refine ⟨fun hio => ?_, fun htrouble => ?_⟩
    · cases e <;> first | rfl | cases hio
    · cases e <;> first | rfl | exact absurd rfl htrouble
  · intro blob e hdecode hread
    have hblames := Snapshot.blamesBlob_of_decode hdecode
    rw [CacheError.blamesBlob, hread] at hblames
    cases hblames

/-- A load that is about to mark the blob, unless the error is one of the file system. -/
def failingLoad (fault : Option CacheError) : List (Machine.Label MemorySlot Value) :=
  .call 0 .load :: List.replicate 6 (.caller 0 { fault })

/-- The rest of that load, and another one of so many steps. -/
def nextLoad (n : Nat) : List (Machine.Label MemorySlot Value) :=
  List.replicate 3 (.caller 0 {}) ++ .call 1 .load :: List.replicate n (.caller 1 {})

/-- After a busy file system the slot is read again; after an empty blob it is not. -/
theorem failures_are_reported_and_remembered_busy :
    (∃ m m' w, run (Machine.step textSetup) blankStart (failingLoad (some (.io (.os .busy)))) = some m ∧
      m.step textSetup (.of (.caller 0) {}) = some m' ∧
      run (Visits.step textSetup) (.of m') (nextLoad 8) = some w ∧
      w.told = [({ reads := 1 }, none)] ∧ ∀ v result, (v, result) ∈ w.told → v.reads + v.hits = 1) ∧
    ∃ m m' w, run (Machine.step textSetup) (.start { blob := some [] } {} {}) (failingLoad none) = some m ∧
      m.step textSetup (.of (.caller 0) {}) = some m' ∧
      run (Visits.step textSetup) (.of m') (nextLoad 6) = some w ∧
      w.told.length = 1 ∧ ∀ v result, (v, result) ∈ w.told → v = {} ∧ result = none := by
  refine ⟨?_, ?_⟩
  · obtain ⟨m, m', w, hm, was, hstep, hrun, hmarks, htold⟩ : ∃ m m' w,
        run (Machine.step textSetup) blankStart (failingLoad (some (.io (.os .busy)))) = some m ∧
          m.activity (.caller 0) = .load (.fail (.io (.os .busy))) ∧
            m.step textSetup (.of (.caller 0) {}) = some m' ∧
              run (Visits.step textSetup) (.of m') (nextLoad 8) = some w ∧ w.marks = 0 ∧
                w.told = [({ reads := 1 }, none)] := ⟨_, _, _, rfl, rfl, rfl, rfl, rfl, rfl⟩
    obtain ⟨-, -, hafter, -⟩ := failures_are_reported_and_remembered ⟨_, hm⟩
    obtain ⟨hreads, -⟩ := hafter _ _ _ _ _ _ was hstep hrun
    exact ⟨m, m', w, hm, hstep, hrun, htold, hreads rfl hmarks⟩
  · obtain ⟨m, m', w, hm, was, hnone, hstep, hrun, hsuccesses, htold⟩ : ∃ m m' w,
        run (Machine.step textSetup) (.start { blob := some [] } {} {}) (failingLoad none) = some m ∧
          m.activity (.caller 0) = .load (.fail (.corrupted .emptyBlob)) ∧ m.shared.current = none ∧
            m.step textSetup (.of (.caller 0) {}) = some m' ∧
              run (Visits.step textSetup) (.of m') (nextLoad 6) = some w ∧ w.successes = 0 ∧
                w.told.length = 1 := ⟨_, _, _, rfl, rfl, rfl, rfl, rfl, rfl, rfl⟩
    obtain ⟨-, -, hafter, -⟩ := failures_are_reported_and_remembered ⟨_, hm⟩
    obtain ⟨-, hidle⟩ := hafter _ _ _ _ _ _ was hstep hrun
    obtain ⟨-, -, hblank⟩ := hidle rfl hnone hsuccesses
    exact ⟨m, m', w, hm, hstep, hrun, htold, hblank⟩

/-- **A failed read that is given up.** A read fails, though not because of the file system, and is reported
as a failed read.  The slot is fine from now on, and its blob decodes, but the next load does not look at
it. -/
theorem failed_read_is_given_up :
    ∃ old m m' w, run (Machine.step textSetup) (oldStart old)
      (failingLoad (some (.internal "busy"))) = some m ∧
      m.activity (.caller 0) = .load (.fail (.internal "busy")) ∧
      m.step textSetup (.of (.caller 0) {}) = some m' ∧
      run (Visits.step textSetup) (.of m') (nextLoad 6) = some w ∧
      w.machine.shared.reports.recorded = [.ofLoadError "memory" (.internal "busy")] ∧
      Trouble.ofLoadError (.internal "busy") = .readFailed ∧ w.successes = 0 ∧ w.told = [({}, none)] ∧
      w.machine.shared.slot.blob = some old ∧
      Snapshot.decode textSetup.codec 1 old = .ok (oldHeader, .string "a") := by
  obtain ⟨old, hold⟩ := exists_oldBlob
  obtain ⟨m, m', w, hm, was, hstep, hrun, hreports, hsuccesses, htold, hblob⟩ : ∃ m m' w,
      run (Machine.step textSetup) (oldStart old) (failingLoad (some (.internal "busy"))) = some m ∧
        m.activity (.caller 0) = .load (.fail (.internal "busy")) ∧
          m.step textSetup (.of (.caller 0) {}) = some m' ∧
            run (Visits.step textSetup) (.of m') (nextLoad 6) = some w ∧
              w.machine.shared.reports.recorded = [.ofLoadError "memory" (.internal "busy")] ∧
                w.successes = 0 ∧ w.told = [({}, none)] ∧ w.machine.shared.slot.blob = some old :=
    ⟨_, _, _, rfl, rfl, rfl, rfl, rfl, rfl, rfl, rfl⟩
  exact ⟨old, m, m', w, hm, was, hstep, hrun, hreports, rfl, hsuccesses, htold, hblob, decode_oldBlob hold⟩

end SnapStore.Cache
