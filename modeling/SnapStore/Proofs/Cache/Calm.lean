import SnapStore.Proofs.Cache.Agreement
import SnapStore.Proofs.Flush.Ledger

namespace SnapStore.Cache

/-!
# A cache that nobody asks for a save

As long as nobody asks for a save, a cache that is calm stays calm, and if there is nothing in its slot and
in its memory, then it stays so.

* `Machine.requests` — a step in which the signal is told of a request.
* `Machine.quiet` — a step in which nobody asks for a save.
* `Machine.Calm` — nobody saves and no save is pending.
* `Machine.Emptied` — moreover the slot is empty, and no load knows of anything else.
* `staysEmpty_of_emptied` — from there on loads find nothing.
-/

variable {σ M : Type}

/-! ### Nobody asks for a save -/

/-- Whether a step tells the signal of a request for a save. -/
def Machine.requests (m : Machine σ M) : Label σ M → Bool
  | .caller i _ =>
    match m.callers i with
    | .marking _ => true
    | _ => false
  | _ => false

/-- Whether a step asks for a save, or changes the slot without the cache. -/
def Machine.disturbs (m : Machine σ M) : Label σ M → Bool
  | .call _ .save | .stranger _ => true
  | .caller i _ =>
    match m.callers i with
    | .marking _ => true
    | _ => false
  | _ => false

/-- One step in which nobody asks for a save and the slot is left to the cache. -/
def Machine.quiet (c : Setup σ M) (l : Label σ M) (m : Machine σ M) : Option (Machine σ M) :=
  if m.disturbs l then none else m.step c l

/-- Whether a save has nothing more to do. -/
def Save.isDone : Save M → Bool
  | .done _ => true
  | _ => false

/-- From here on, as long as nobody asks for a save, the slot is empty, and whoever begins to load finds
nothing. -/
def Machine.StaysEmpty (c : Setup σ M) (content : σ → Option Bytes) (m : Machine σ M) : Prop :=
  ∀ u, Reachable (Machine.quiet c) m u → content u.shared.slot = none ∧
    ∀ j v w r, Machine.step c (.call j .load) u = some v → Reachable (Machine.quiet c) v w →
      w.callers j = .done (.loaded r) → r = none

variable {c : Setup σ M} {m m' : Machine σ M} {l : Machine.Label σ M} {me : Actor} {o : Outside}
  {s s' : Shared σ M}

theorem Machine.quiet_eq_some_iff :
    m.quiet c l = some m' ↔ m.disturbs l = false ∧ m.step c l = some m' := by
  unfold quiet
  cases m.disturbs l <;> simp

/-- A step that requests a save disturbs. -/
theorem Machine.requests_eq_false (h : m.disturbs l = false) : m.requests l = false := by
  cases l with
  | caller i o => exact h
  | _ => rfl

/-- Steps that do not ask for a save in any state are quiet. -/
theorem run_quiet {ls : List (Machine.Label σ M)}
    (hls : ∀ l ∈ ls, ∀ m : Machine σ M, m.disturbs l = false) :
    run (Machine.quiet c) m ls = run (Machine.step c) m ls := by
  induction ls generalizing m with
  | nil => rfl
  | cons l ls ih =>
    have hl : m.quiet c l = m.step c l := by
      rw [Machine.quiet, hls l List.mem_cons_self m]
      rfl
    rw [run_cons, run_cons, hl]
    congr 1
    funext u
    exact ih fun k hk => hls k (List.mem_cons_of_mem l hk)

theorem run_of_quiet {u : Machine σ M} {ls : List (Machine.Label σ M)}
    (h : run (Machine.quiet c) m ls = some u) : run (Machine.step c) m ls = some u := by
  have hmap := run_map (f := id) (g := id) (fun _ _ _ hs => (Machine.quiet_eq_some_iff.mp hs).2) h
  rw [List.map_id] at hmap
  exact hmap

theorem reachable_of_quiet {u : Machine σ M} (h : Reachable (Machine.quiet c) m u) :
    Reachable (Machine.step c) m u := by
  obtain ⟨ls, hls⟩ := h
  exact ⟨ls, run_of_quiet hls⟩

/-! ### No save is on its way -/

theorem Load.signal_eq {p p' : Load M} (h : p.step c me o s = some (p', s')) : s'.signal = s.signal := by
  cases p with
  | peek | recheck | enter | install =>
    simp only [Load.step] at h
    split at h <;> cases h <;> rfl
  | consult | fetch | complain | publish | leave =>
    cases h
    rfl
  | receive found =>
    simp only [Load.step] at h
    split at h
    · cases h
      rfl
    · cases h
      rfl
    · split at h <;> cases h <;> rfl
  | fail e =>
    cases h
    split <;> rfl
  | done result => cases h

/-- An invalidation drops the pending save and never adds one. -/
theorem Invalidation.pending_eq_none {p p' : Invalidation} (h : p.step c me o s = some (p', s'))
    (hp : p = .cancel ∨ s.signal.pending = none) : s'.signal.pending = none := by
  cases p with
  | cancel =>
    cases h
    rfl
  | enterLoad | enterWrite | remove =>
    simp only [Invalidation.step] at h
    split at h <;> cases h <;> exact hp.resolve_left (by simp)
  | forget | absolve | leave =>
    cases h
    exact hp.resolve_left (by simp)
  | done result => cases h

theorem Save.signal_eq {p p' : Save M} (h : p.step c me o s = some (p', s')) : s'.signal = s.signal := by
  cases p with
  | enter | capture | seed | receive | encode | write =>
    simp only [Save.step] at h
    split at h <;> cases h <;> rfl
  | commit | publish | record | leave =>
    cases h
    rfl
  | done result => cases h

theorem Save.isDone_eq_false_of_step {p p' : Save M} (h : p.step c me o s = some (p', s')) :
    p.isDone = false := by
  cases p with
  | done result => cases h
  | _ => rfl

/-- If no save is pending, then none is after a step that requests none. -/
theorem Turn.pending_eq_none (turn : Turn c m m' l) (hl : m.requests l = false)
    (hp : m.shared.signal.pending = none) : m'.shared.signal.pending = none := by
  cases turn with
  | load me o p p' was now others step => rw [Load.signal_eq step, hp]
  | save me o p p' was now others step => rw [Save.signal_eq step, hp]
  | invalidate me o p p' was now others step => exact Invalidation.pending_eq_none step (.inr hp)
  | begin i call last was eq => rw [eq]; exact hp
  | edge me o was others core aside =>
    cases aside with
    | still me o signal now => rw [signal, hp]
    | request i o reading was' signal now =>
      -- this is the step that requests one
      simp only [Machine.Label.of, Machine.requests, was'] at hl
      cases hl
    | close i o was' signal now => rw [signal]; exact hp
    | decide o d was' signal now => rw [(Flush.Signal.decide?_eq_some_iff.mp signal).1]
    | finish o d was' signal now => rw [signal]; exact hp
  | host holder same shared_eq => rw [shared_eq]; exact hp
  | stranger slot same shared_eq => rw [shared_eq]; exact hp

/-- If no caller saves, then none does after a quiet step. -/
theorem Turn.callers_isDone (turn : Turn c m m' l) (hl : m.disturbs l = false)
    (h : ∀ j p, m.activity (.caller j) = .save p → p.isDone = true) {j : ThreadId} {q : Save M}
    (hq : m'.activity (.caller j) = .save q) : q.isDone = true := by
  cases turn.course (.caller j) with
  | same eq => exact h j q (by rw [← eq, hq])
  | load o p p' label was now step | invalidate o p p' label was now step =>
    rw [now] at hq
    cases hq
  | save o p p' label was now step =>
    have hdone := h j p was
    rw [Save.isDone_eq_false_of_step step] at hdone
    cases hdone
  | begin i call label was now =>
    subst label
    rw [now] at hq
    cases call with
    | save => cases hl
    | _ => cases hq
  | edge o label was aside =>
    rw [aside.activity_eq_rest] at hq
    cases hq

/-- No save is pending, and nobody makes one. -/
structure Machine.Calm (m : Machine σ M) : Prop where
  pending : m.shared.signal.pending = none
  callers : ∀ j p, m.activity (.caller j) = .save p → p.isDone = true
  writer : ∀ p, m.activity .writer = .save p → p.isDone = true

theorem Machine.Calm.isDone (h : m.Calm) {a : Actor} {p : Save M} (hp : m.activity a = .save p) :
    p.isDone = true := by
  cases a with
  | writer => exact h.writer p hp
  | caller j => exact h.callers j p hp

theorem Machine.calm_start (slot : σ) (holder : Holder M) (reports : Reports) :
    (Machine.start slot holder reports).Calm where
  pending := rfl
  callers _ _ h := by cases h
  writer _ h := by cases h

/-- **Calm lasts.** As long as nobody asks for a save there is none: the writer has nothing to decide on. -/
theorem Machine.Calm.turn (h : m.Calm) (turn : Turn c m m' l) (hl : m.disturbs l = false) :
    m'.Calm := by
  refine ⟨turn.pending_eq_none (Machine.requests_eq_false hl) h.pending, fun _ _ =>
    turn.callers_isDone hl h.callers, ?_⟩
  intro q hq
  cases turn.course .writer with
  | same eq => exact h.writer q (by rw [← eq, hq])
  | load o p p' label was now step | invalidate o p p' label was now step =>
    rw [now] at hq
    cases hq
  | save o p p' label was now step =>
    have hdone := h.writer p was
    rw [Save.isDone_eq_false_of_step step] at hdone
    cases hdone
  | begin i call label was now =>
    subst label
    rw [now] at hq
    cases call with
    | save => cases hl
    | _ => cases hq
  | edge o label was aside =>
    cases aside with
    | still _ _ signal now | finish _ _ _ signal now =>
      rw [now] at hq
      cases hq
    | decide o d was' signal now =>
      -- it can only decide to stop, and that without a save
      obtain ⟨-, ⟨-, rfl⟩ | ⟨-, -, p, hp, -⟩⟩ := Flush.Signal.decide?_eq_some_iff.mp signal
      · simp only [Machine.activity, now, h.pending, Writer.decided] at hq
        cases hq
      · rw [h.pending] at hp
        cases hp

/-! ### Nothing in the slot -/

section Emptied

variable {content : σ → Option Bytes}

/-- No save is on its way, the slot is empty, and no load knows of anything else. -/
structure Machine.Emptied (c : Setup σ M) (content : σ → Option Bytes) (m : Machine σ M) : Prop where
  calm : m.Calm
  slot : content m.shared.slot = none
  loads : ∀ a p, m.activity a = .load p → p.Knows c none

/-- An empty slot decodes to nothing. -/
theorem not_decodes_none {model : M} : ¬ Decodes c none model := by
  rintro ⟨b, h, hb, -⟩
  cases hb

/-- As long as nobody asks for a save, an empty slot stays empty, and nothing new comes into memory. -/
theorem Machine.Emptied.turn (h : m.Emptied c content) (hslot : c.slot.Lawful content)
    (turn : Turn c m m' l) (hl : m.disturbs l = false) :
    m'.Emptied c content ∧ (m'.shared.current = m.shared.current ∨ m'.shared.current = none) := by
  have hloads (a : Actor) (q : Load M) (hq : m'.activity a = .load q) : q.Knows c none := by
    cases turn.course a with
    | same eq => exact h.loads a q (by rw [← eq, hq])
    | load o p p' label was now step =>
      obtain ⟨hs, -, hknows, -⟩ := Load.effect hslot step
      rw [hs, h.slot] at hknows
      rw [now, Activity.load.injEq] at hq
      rw [← hq]
      exact hknows (h.loads a p was)
    | save o p p' label was now step | invalidate o p p' label was now step =>
      rw [now] at hq
      cases hq
    | begin i call label was now =>
      rw [now] at hq
      cases call <;> cases hq
      trivial
    | edge o label was aside =>
      have hload := Activity.holdsLoad_of_isAtEdge aside.isAtEdge
      rw [hq] at hload
      exact Load.knows_of_holdsLoad hload
  have hrest : content m'.shared.slot = none ∧
      (m'.shared.current = m.shared.current ∨ m'.shared.current = none) := by
    cases turn with
    | load me o p p' was now others step =>
      obtain ⟨hs, -, -, hcurrent | ⟨header, model, rfl, -⟩⟩ := Load.effect hslot step
      · exact ⟨by rw [hs, h.slot], .inl hcurrent⟩
      · -- no load has anything to publish
        exact absurd (h.loads me _ was) not_decodes_none
    | save me o p p' was now others step =>
      have hdone := h.calm.isDone was
      rw [Save.isDone_eq_false_of_step step] at hdone
      cases hdone
    | invalidate me o p p' was now others step =>
      obtain ⟨-, ⟨hs, hcurrent, -⟩ | ⟨hs, hcurrent, -⟩ | ⟨hs, hcurrent, -⟩⟩ :=
        Invalidation.effect hslot step
      · exact ⟨by rw [hs, h.slot], .inl hcurrent⟩
      · exact ⟨hs, .inl hcurrent⟩
      · exact ⟨by rw [hs, h.slot], .inr hcurrent⟩
    | begin i call last was eq =>
      subst eq
      exact ⟨h.slot, .inl rfl⟩
    | edge me o was others core aside => exact ⟨by rw [core.slot, h.slot], .inl core.current⟩
    | host holder same shared_eq =>
      rw [shared_eq]
      exact ⟨h.slot, .inl rfl⟩
    | stranger slot same shared_eq => cases hl
  exact ⟨⟨h.calm.turn turn hl, hrest.1, hloads⟩, hrest.2⟩

/-- Removing the blob while the cache is calm leaves nothing. -/
theorem emptied_of_remove (hslot : c.slot.Lawful content) {i : ThreadId} (hcalm : m.Calm)
    (lanes : m.Lanes) (hremove : m.callers i = .invalidating .remove)
    (hstep : Machine.step c (.caller i o) m = some m')
    (hok : m'.callers i = .invalidating .forget) : m'.Emptied c content := by
  have hi : m.activity (.caller i) = .invalidate .remove := by simp only [Machine.activity, hremove]; rfl
  have hcalm' : m'.Calm := hcalm.turn (turn_of_step hstep) (by simp only [Machine.disturbs, hremove])
  simp only [Machine.step, Machine.stepCaller, hremove] at hstep
  obtain ⟨⟨p', s⟩, hp, rfl⟩ := Option.map_eq_some_iff.mp hstep
  rw [Machine.callers_move_self, Caller.invalidating.injEq] at hok
  subst hok
  refine ⟨hcalm', ?_, fun a p ha => Load.knows_of_holdsLoad ?_⟩
  · simp only [Invalidation.step] at hp
    split at hp <;> rename_i hr <;> cases hp
    exact content_of_remove hslot hr
  · -- the load lane is not in anybody else's hand
    by_cases hne : a = .caller i
    · rw [hne, Machine.activity_move_self] at ha
      cases ha
    · rw [Machine.activity_move_of_ne m _ _ hne] at ha
      by_contra hp'
      have hload : (m.activity a).holdsLoad = true := by
        rw [ha]
        exact Bool.of_not_eq_false hp'
      exact hne (lanes.load.unique hload (by rw [hi]; rfl))

end Emptied

/-- Whoever is about to forget the snapshot in memory does so before it does anything else. -/
theorem Turn.forgets (turn : Turn c m m' l) {a : Actor} (ha : m.activity a = .invalidate .forget) :
    m'.shared.current = none ∨ m'.activity a = .invalidate .forget := by
  cases turn.course a with
  | same eq => exact .inr (by rw [eq, ha])
  | load o p p' label was | save o p p' label was =>
    rw [ha] at was
    cases was
  | invalidate o p p' label was now step =>
    rw [ha, Activity.invalidate.injEq] at was
    subst was
    simp only [Invalidation.step, Option.some.injEq, Prod.mk.injEq] at step
    exact .inl (by rw [← step.2])
  | begin i call label was =>
    rw [ha] at was
    cases was
  | edge o label was aside =>
    rw [ha] at was
    cases was

/-! ### Loads that find nothing -/

/-- Whether a load has not found a model. -/
def Load.isBlank : Load M → Bool
  | .leave (some _) | .done (some _) => false
  | _ => true

/-- With nothing in memory and nothing in the slot, a load finds nothing. -/
theorem Load.isBlank_of_step {p p' : Load M} (hcurrent : s.current = none) (hknows : p.Knows c none)
    (hp : p.isBlank = true) (h : p.step c me o s = some (p', s')) : p'.isBlank = true := by
  cases p with
  | peek | recheck =>
    simp only [Load.step, hcurrent, Option.some.injEq, Prod.mk.injEq] at h
    rw [← h.1]
    rfl
  | enter | install =>
    simp only [Load.step] at h
    split at h <;> cases h
    rfl
  | consult =>
    cases h
    split <;> rfl
  | fetch | fail | complain =>
    cases h
    rfl
  | receive found =>
    simp only [Load.step] at h
    split at h
    · cases h
      rfl
    · cases h
      rfl
    · split at h <;> cases h <;> rfl
  | publish header model => exact absurd hknows not_decodes_none
  | leave result =>
    cases h
    cases result with
    | none => rfl
    | some => cases hp
  | done result => cases h

/-- A caller has not found a model since it last began to load. -/
structure Machine.FindsNothing (j : ThreadId) (m : Machine σ M) : Prop where
  load : ∀ p, m.activity (.caller j) = .load p → p.isBlank = true
  answer : ∀ r, m.callers j = .done (.loaded r) → r = none

theorem Machine.FindsNothing.step {content : σ → Option Bytes} {j : ThreadId}
    (h : m.FindsNothing j) (hempty : m.Emptied c content) (hcurrent : m.shared.current = none)
    (hstep : m.step c l = some m') : m'.FindsNothing j := by
  refine ⟨fun q hq => ?_, fun r hr => ?_⟩
  · cases (turn_of_step hstep).course (.caller j) with
    | same eq => exact h.load q (by rw [← eq, hq])
    | load o p p' label was now step =>
      rw [now, Activity.load.injEq] at hq
      subst hq
      exact Load.isBlank_of_step hcurrent (hempty.loads _ p was) (h.load p was) step
    | save o p p' label was now step | invalidate o p p' label was now step =>
      rw [now] at hq
      cases hq
    | begin i call label was now =>
      rw [now] at hq
      cases call <;> cases hq
      rfl
    | edge o label was aside =>
      rw [aside.activity_eq_rest] at hq
      cases hq
  · rcases place_of_answer hstep hr rfl with hr | hp
    · exact h.answer r hr
    · have hblank := h.load (.done r) (by simp only [Machine.activity, hp]; rfl)
      cases r with
      | none => rfl
      | some => cases hblank

/-- **Nothing to be found.** Once the cache is empty in memory and in its slot, it stays so as long as
nobody asks for a save. -/
theorem staysEmpty_of_emptied {content : σ → Option Bytes} (hslot : c.slot.Lawful content)
    (h : m.Emptied c content) (hcurrent : m.shared.current = none) : m.StaysEmpty c content := by
  have hkept {t u : Machine σ M} {l : Machine.Label σ M}
      (ht : t.Emptied c content ∧ t.shared.current = none) (hstep : t.quiet c l = some u) :
      u.Emptied c content ∧ u.shared.current = none := by
    obtain ⟨hl, hm⟩ := Machine.quiet_eq_some_iff.mp hstep
    obtain ⟨hu, hcurrent⟩ := ht.1.turn hslot (turn_of_step hm) hl
    exact ⟨hu, hcurrent.elim (fun hc => by rw [hc, ht.2]) id⟩
  intro u hu
  -- from here on the cache is empty, and after a further call it still is
  have hempty := hu.induction (P := fun t => t.Emptied c content ∧ t.shared.current = none)
    ⟨h, hcurrent⟩ fun _ _ _ ht hs => hkept ht hs
  refine ⟨hempty.1.slot, ?_⟩
  intro j v w r hcall hw hr
  have hv : v.Emptied c content ∧ v.shared.current = none :=
    hkept hempty (Machine.quiet_eq_some_iff.mpr ⟨rfl, hcall⟩)
  have hj : v.FindsNothing j := by
    simp only [Machine.step] at hcall
    split at hcall <;> cases hcall
    refine ⟨fun p hp => ?_, fun r hr => ?_⟩
    · rw [Machine.activity_move_self] at hp
      cases hp
      rfl
    · rw [Machine.callers_move_self] at hr
      cases hr
  have hlast := hw.induction
    (P := fun t => (t.Emptied c content ∧ t.shared.current = none) ∧ t.FindsNothing j) ⟨hv, hj⟩
    fun _ _ _ ht hs => ⟨hkept ht.1 hs,
      ht.2.step ht.1.1 ht.1.2 (Machine.quiet_eq_some_iff.mp hs).2⟩
  exact hlast.2.answer r hr

end SnapStore.Cache
