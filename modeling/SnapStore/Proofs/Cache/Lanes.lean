import SnapStore.Proofs.Cache.Steps

namespace SnapStore.Cache

/-!
# The lanes of a cache

A lane is held by the thread that stands where it has the lane in hand, and by nobody else.  Every step
keeps this, so that no two threads have the same lane in hand.

* `Moves` — what a step does to a lane; `Load.moves`, `Save.moves` and `Invalidation.moves` say what theirs
  do.
* `Machine.Lanes` — the invariant.
* `Machine.lanes_of_reachable` — it holds in every state that can be reached.
-/

variable {σ M : Type} {c : Setup σ M} {m m' : Machine σ M}

/-! ### Who holds a lane -/

/-- A thread takes a lane that is free, releases the one that it has in hand, or leaves it alone.  The
truth values say whether it has the lane in hand before and after. -/
inductive Moves (me : Actor) : Bool → Bool → Option Actor → Option Actor → Prop
  | takes : Moves me false true none (some me)
  | releases {lane : Option Actor} : Moves me true false lane none
  | keeps {b : Bool} {lane : Option Actor} : Moves me b b lane lane

/-- A lane is held by the thread that has it in hand, and by nobody else. -/
def Held (holds : Actor → Bool) (lane : Option Actor) : Prop := ∀ a, lane = some a ↔ holds a = true

/-- What the others do is the same, so that the lane stays with the one who has it in hand. -/
theorem Held.moves {holds holds' : Actor → Bool} {lane lane' : Option Actor} {me : Actor}
    (h : Held holds lane) (moves : Moves me (holds me) (holds' me) lane lane')
    (others : ∀ a, a ≠ me → holds' a = holds a) : Held holds' lane' := by
  intro a
  generalize hb : holds me = b at moves
  generalize hb' : holds' me = b' at moves
  by_cases ha : a = me
  · -- the thread itself has the lane in hand exactly if it has taken or kept it
    subst ha
    cases moves with
    | takes => simp [hb']
    | releases => simp [hb']
    | keeps => rw [hb', h a, hb]
  · -- no other thread had the lane in hand if this one could take or release it
    rw [others a ha]
    cases moves with
    | takes =>
      have hfree : holds a ≠ true := fun hh => by cases (h a).mpr hh
      simp [hfree, Ne.symm ha]
    | releases =>
      have hfree : holds a ≠ true := by
        intro hh
        have h1 := (h a).mpr hh
        have h2 := (h me).mpr hb
        rw [h1, Option.some.injEq] at h2
        exact ha h2
      simp [hfree]
    | keeps => exact h a

theorem Held.unique {holds : Actor → Bool} {lane : Option Actor} (h : Held holds lane) {a b : Actor}
    (ha : holds a = true) (hb : holds b = true) : a = b := by
  have := (h a).mpr ha
  rw [(h b).mpr hb, Option.some.injEq] at this
  exact this.symm

variable {me : Actor} {o : Outside} {s s' : Shared σ M}

theorem Load.moves {p p' : Load M} (h : p.step c me o s = some (p', s')) :
    Moves me p.holdsWrite p'.holdsWrite s.writeLane s'.writeLane ∧
      Moves me p.holdsLoad p'.holdsLoad s.loadLane s'.loadLane := by
  cases p with
  | peek | recheck =>
    simp only [Load.step] at h
    split at h <;> cases h <;> exact ⟨.keeps, .keeps⟩
  | enter =>
    simp only [Load.step, Option.isNone_iff_eq_none] at h
    split at h
    · -- a lane is only taken if nobody has it
      rename_i hfree
      cases h
      exact ⟨.keeps, by rw [hfree]; exact .takes⟩
    · cases h
  | consult =>
    simp only [Load.step] at h
    cases h
    split <;> exact ⟨.keeps, .keeps⟩
  | fetch | complain =>
    cases h
    exact ⟨.keeps, .keeps⟩
  | receive found =>
    simp only [Load.step] at h
    split at h
    · cases h
      exact ⟨.keeps, .keeps⟩
    · cases h
      exact ⟨.keeps, .keeps⟩
    · split at h <;> cases h <;> exact ⟨.keeps, .keeps⟩
  | fail e =>
    cases h
    split <;> exact ⟨.keeps, .keeps⟩
  | install header model =>
    simp only [Load.step, Option.isNone_iff_eq_none] at h
    split at h
    · rename_i hfree
      cases h
      exact ⟨by rw [hfree]; exact .takes, .keeps⟩
    · cases h
  | publish header model =>
    cases h
    exact ⟨.releases, .keeps⟩
  | leave result =>
    cases h
    exact ⟨.keeps, .releases⟩
  | done result => cases h

theorem Save.moves {p p' : Save M} (h : p.step c me o s = some (p', s')) :
    Moves me p.holdsWrite p'.holdsWrite s.writeLane s'.writeLane ∧ s'.loadLane = s.loadLane := by
  cases p with
  | enter =>
    simp only [Save.step, Option.isNone_iff_eq_none] at h
    split at h
    · rename_i hfree
      cases h
      exact ⟨by rw [hfree]; exact .takes, rfl⟩
    · cases h
  | capture | seed | receive | encode | write =>
    simp only [Save.step] at h
    split at h <;> cases h <;> exact ⟨.keeps, rfl⟩
  | commit | publish | record =>
    cases h
    exact ⟨.keeps, rfl⟩
  | leave result =>
    cases h
    exact ⟨.releases, rfl⟩
  | done result => cases h

theorem Invalidation.moves {p p' : Invalidation} (h : p.step c me o s = some (p', s')) :
    Moves me p.holdsWrite p'.holdsWrite s.writeLane s'.writeLane ∧
      Moves me p.holdsLoad p'.holdsLoad s.loadLane s'.loadLane := by
  cases p with
  | cancel | forget | absolve =>
    cases h
    exact ⟨.keeps, .keeps⟩
  | enterLoad =>
    simp only [Invalidation.step, Option.isNone_iff_eq_none] at h
    split at h
    · rename_i hfree
      cases h
      exact ⟨.keeps, by rw [hfree]; exact .takes⟩
    · cases h
  | enterWrite =>
    simp only [Invalidation.step, Option.isNone_iff_eq_none] at h
    split at h
    · rename_i hfree
      cases h
      exact ⟨by rw [hfree]; exact .takes, .keeps⟩
    · cases h
  | remove =>
    simp only [Invalidation.step] at h
    split at h <;> cases h <;> exact ⟨.keeps, .keeps⟩
  | leave result =>
    cases h
    exact ⟨.releases, .releases⟩
  | done result => cases h

/-- Every lane is held by the thread that has it in hand, and by nobody else. -/
structure Machine.Lanes (m : Machine σ M) : Prop where
  write : Held (fun a => (m.activity a).holdsWrite) m.shared.writeLane
  load : Held (fun a => (m.activity a).holdsLoad) m.shared.loadLane

/-- No lane is in the hands of two threads. -/
structure Apart (activity : Actor → Activity M) : Prop where
  write : ∀ a b, (activity a).holdsWrite = true → (activity b).holdsWrite = true → a = b
  load : ∀ a b, (activity a).holdsLoad = true → (activity b).holdsLoad = true → a = b

theorem Machine.Lanes.apart (h : m.Lanes) : Apart m.activity :=
  ⟨fun _ _ ha hb => h.write.unique ha hb, fun _ _ ha hb => h.load.unique ha hb⟩

theorem Machine.lanes_start (slot : σ) (holder : Holder M) (reports : Reports) :
    (Machine.start slot holder reports).Lanes := by
  constructor <;> intro a <;> cases a <;> constructor <;> intro h <;> cases h

/-- What a step of a thread means for the lanes. -/
private theorem Machine.Lanes.of_moves (h : m.Lanes) (me : Actor)
    (others : ∀ a, a ≠ me → m'.activity a = m.activity a)
    (write : Moves me (m.activity me).holdsWrite (m'.activity me).holdsWrite m.shared.writeLane
      m'.shared.writeLane)
    (load : Moves me (m.activity me).holdsLoad (m'.activity me).holdsLoad m.shared.loadLane
      m'.shared.loadLane) : m'.Lanes where
  write := h.write.moves write fun a ha => by rw [others a ha]
  load := h.load.moves load fun a ha => by rw [others a ha]

/-- **Nobody else.** A step keeps it that a lane is held by the one thread that has it in hand. -/
theorem Machine.Lanes.turn {l : Machine.Label σ M} (h : m.Lanes) (turn : Turn c m m' l) :
    m'.Lanes := by
  cases turn with
  | load me o p p' was now others step =>
    obtain ⟨hw, hl⟩ := Load.moves step
    refine h.of_moves me others ?_ ?_ <;> rw [was, now]
    · exact hw
    · exact hl
  | save me o p p' was now others step =>
    obtain ⟨hw, hl⟩ := Save.moves step
    refine h.of_moves me others ?_ ?_ <;> rw [was, now]
    · exact hw
    · rw [hl]
      exact .keeps
  | invalidate me o p p' was now others step =>
    obtain ⟨hw, hl⟩ := Invalidation.moves step
    refine h.of_moves me others ?_ ?_ <;> rw [was, now]
    · exact hw
    · exact hl
  | begin i call last was eq =>
    subst eq
    refine h.of_moves (.caller i) (fun a ha => Machine.activity_move_of_ne m _ _ ha) ?_ ?_
    all_goals
      have hbefore : m.activity (.caller i) = .rest := by simp only [Machine.activity, was]; rfl
      rw [hbefore, Machine.activity_move_self]
      cases call <;> exact .keeps
  | edge me o was others core aside =>
    -- outside the lanes nobody has one in hand, before or after
    have now := aside.isAtEdge
    refine h.of_moves me others ?_ ?_
    · rw [Activity.holdsWrite_of_isAtEdge was, Activity.holdsWrite_of_isAtEdge now, core.writeLane]
      exact .keeps
    · rw [Activity.holdsLoad_of_isAtEdge was, Activity.holdsLoad_of_isAtEdge now, core.loadLane]
      exact .keeps
  | host holder same shared_eq =>
    exact ⟨by rw [same, shared_eq]; exact h.write, by rw [same, shared_eq]; exact h.load⟩
  | stranger slot same shared_eq =>
    exact ⟨by rw [same, shared_eq]; exact h.write, by rw [same, shared_eq]; exact h.load⟩

/-- In every state that can be reached, every lane is held by the thread that has it in hand, and by
nobody else. -/
theorem Machine.lanes_of_reachable {slot : σ} {holder : Holder M} {reports : Reports}
    (h : Reachable (Machine.step c) (Machine.start slot holder reports) m) : m.Lanes :=
  h.induction (Machine.lanes_start slot holder reports) fun _ _ _ hm hs => hm.turn (turn_of_step hs)

end SnapStore.Cache
