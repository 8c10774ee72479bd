import SnapStore.Proofs.Cache.Chronicle
import SnapStore.Proofs.Cache.Lanes
import SnapStore.Proofs.Cache.Alone

namespace SnapStore.Cache

/-!
# Loads never go back

Saves are numbered in the order in which they fill the slot.  A load can read the blob of an old save,
be overtaken by a new one, and come to its end long after it.  It makes no difference: whoever finds a
snapshot in memory takes that one, and the snapshot in memory only moves on to later saves, until an
invalidation forgets it.

* `Numbers` says which saves the slot, the memory and the threads have to do with; `Lineage` is a cache with
  these numbers, which never decide which steps there are.
* `Standing.Step` and `Lineage.standing_step` — what a step means for them.
* `Standing.Sound` — what is always true of the numbers; `Standing.Kept` — what is true as long as nobody
  invalidates the cache.
* `loads_never_go_back` — the result.
-/

variable {σ M : Type}

/-! ### Numbers of saves -/

/-- Which saves the slot, the memory and the threads have to do with. -/
structure Numbers (M : Type) where
  /-- The models of all saves, in the order in which they have filled the slot. -/
  saved : List M := []
  /-- The save whose blob is in the slot. -/
  slot : Option Nat := none
  /-- The save whose model is in memory. -/
  memory : Option Nat := none
  /-- The last save of each thread. -/
  made : Actor → Option Nat := fun _ => none
  /-- The save whose blob each thread has read last. -/
  read : Actor → Option Nat := fun _ => none
  /-- The save whose model the load of each thread has come to. -/
  got : Actor → Option Nat := fun _ => none

namespace Numbers

/-- A thread has saved a model or removed the blob. -/
def note (x : Numbers M) (me : Actor) : Deed M → Numbers M
  | .saved model _ _ => { x with
      saved := x.saved ++ [model]
      slot := some x.saved.length
      made := Function.update x.made me (some x.saved.length) }
  | .removed => { x with slot := none }

/-- The numbers after the next step of a thread. -/
def after (c : Setup σ M) (me : Actor) (o : Outside) (s : Shared σ M) (x : Numbers M) :
    Activity M → Numbers M
  | .load .peek | .load .recheck =>
    if s.current.isSome then { x with got := Function.update x.got me x.memory } else x
  | .load .fetch => { x with read := Function.update x.read me x.slot }
  | .load (.publish ..) =>
    let n := if s.current.isSome then x.memory else x.read me
    { x with memory := n, got := Function.update x.got me n }
  | .save (.publish ..) => { x with memory := x.made me }
  | .invalidate .forget => { x with memory := none }
  | a => (a.deed? c o s.slot).elim x (x.note me)

/-- The numbers after a step. -/
def step (c : Setup σ M) (m : Machine σ M) (x : Numbers M) : Machine.Label σ M → Numbers M
  | .call i _ => { x with got := Function.update x.got (.caller i) none }
  | .caller i o => x.after c (.caller i) o m.shared (m.activity (.caller i))
  | .writer o => x.after c .writer o m.shared (m.activity .writer)
  | .host _ => x
  | .stranger _ => { x with slot := none }

/-- This is the model of the save `k` or of a later one. -/
def IsSince (x : Numbers M) (k : Nat) (result : Option M) : Prop :=
  ∃ n model, result = some model ∧ k ≤ n ∧ x.saved[n]? = some model

theorem step_of (c : Setup σ M) (m : Machine σ M) (x : Numbers M) (me : Actor) (o : Outside) :
    x.step c m (.of me o) = x.after c me o m.shared (m.activity me) := by
  cases me <;> rfl

end Numbers

/-- A cache with the numbers of its saves. -/
structure Lineage (σ M : Type) where
  machine : Machine σ M
  numbers : Numbers M := {}

namespace Lineage

/-- One step of one thread, or a change from elsewhere. -/
def step (c : Setup σ M) (l : Machine.Label σ M) (w : Lineage σ M) : Option (Lineage σ M) :=
  (w.machine.step c l).map fun machine => ⟨machine, w.numbers.step c w.machine l⟩

/-- The numbers only look on: every run of the cache is a run with numbers. -/
theorem exists_run {c : Setup σ M} {w : Lineage σ M} {ls : List (Machine.Label σ M)} {m : Machine σ M}
    (h : run (Machine.step c) w.machine ls = some m) :
    ∃ v, run (Lineage.step c) w ls = some v ∧ v.machine = m := by
  refine exists_run_of_run (fun l w => ?_) h
  rw [Lineage.step, Option.map_map]
  exact Option.map_id' ..

/-- A cache that has just been opened. -/
def start (slot : σ) (holder : Holder M) (reports : Reports) : Lineage σ M where
  machine := .start slot holder reports

end Lineage

/-! ### What a step means -/

/-- Whether an invalidation is under way. -/
def Invalidation.isUnderWay : Invalidation → Bool
  | .done _ => false
  | _ => true

/-- Whether a thread is invalidating the cache. -/
def Activity.isInvalidating : Activity M → Bool
  | .invalidate p => p.isUnderWay
  | _ => false

/-- Whether a load has read the slot and may still put what it has read into memory. -/
def Load.isCarrying : Load M → Bool
  | .receive _ | .install .. | .publish .. => true
  | _ => false

/-- Whether a thread has read the slot and may still put what it has read into memory. -/
def Activity.isCarrying : Activity M → Bool
  | .load p => p.isCarrying
  | _ => false

/-- The numbers of the saves, with what the threads are doing and the snapshot in memory. -/
structure Standing (M : Type) extends Numbers M where
  activity : Actor → Activity M
  current : Option M

/-- A thread goes on to something else. -/
def Standing.move (x : Standing M) (me : Actor) (q : Activity M) : Standing M :=
  { x with activity := Function.update x.activity me q }

/-- The numbers of a cache, with what its threads are doing and the snapshot in memory. -/
def Lineage.standing (w : Lineage σ M) : Standing M where
  toNumbers := w.numbers
  activity := w.machine.activity
  current := w.machine.shared.current

/-- What a step means for the numbers. -/
inductive Standing.Step (x : Standing M) : Standing M → Prop
  | /-- Nothing of this changes. -/ same : Step x x
  | /-- Nobody knows what is in the slot any more. -/ stranger : Step x { x with slot := none }
  | begin (i : ThreadId) (call : Call) (was : x.activity (.caller i) = .rest) :
      Step x { x.move (.caller i) (Caller.start call : Caller M).activity with
        got := Function.update x.got (.caller i) none }
  | quiet (me : Actor) (q : Activity M) (was : (x.activity me).isCommitting = false)
      (committing : q.isCommitting = false)
      (carrying : q.isCarrying = true → (x.activity me).isCarrying = true)
      (invalidating : q.isInvalidating = true → (x.activity me).isInvalidating = true)
      (forget : q ≠ .invalidate .forget)
      (loading : ∀ p, q = .load p → p ≠ .peek ∧ ∃ p', x.activity me = .load p' ∧ (∀ r, p' ≠ .done r) ∧
        (p' = .peek → x.current = none)) : Step x (x.move me q)
  | /-- A load finds a snapshot in memory. -/ hit (me : Actor) (model : M) (q : Load M)
      (current : x.current = some model)
      (place : x.activity me = .load .peek ∧ q = .done (some model) ∨
        x.activity me = .load .recheck ∧ q = .leave (some model)) :
      Step x { x.move me (.load q) with got := Function.update x.got me x.memory }
  | read (me : Actor) (found : Except CacheError (Option Bytes)) (was : x.activity me = .load .fetch) :
      Step x { x.move me (.load (.receive found)) with read := Function.update x.read me x.slot }
  | /-- A load takes over the snapshot in memory. -/ follow (me : Actor) (h : Snapshot.Header)
      (model kept : M) (was : x.activity me = .load (.publish h model)) (current : x.current = some kept) :
      Step x { x.move me (.load (.leave (some kept))) with got := Function.update x.got me x.memory }
  | /-- A load puts a snapshot into memory. -/ lead (me : Actor) (h : Snapshot.Header) (model : M)
      (was : x.activity me = .load (.publish h model)) (current : x.current = none) :
      Step x { x.move me (.load (.leave (some model))) with
        current := some model, memory := x.read me, got := Function.update x.got me (x.read me) }
  | write (me : Actor) (model : M) (h : Snapshot.Header) (blob : Bytes) (r : SaveReport)
      (was : x.activity me = .save (.write model h blob)) :
      Step x { x.move me (.save (.commit model r)) with
        saved := x.saved ++ [model]
        slot := some x.saved.length
        made := Function.update x.made me (some x.saved.length) }
  | commit (me : Actor) (model : M) (r : SaveReport) (was : x.activity me = .save (.commit model r)) :
      Step x (x.move me (.save (.publish model r)))
  | settle (me : Actor) (model : M) (r : SaveReport) (was : x.activity me = .save (.publish model r)) :
      Step x { x.move me (.save (.record r)) with current := some model, memory := x.made me }
  | remove (me : Actor) (was : x.activity me = .invalidate .remove) :
      Step x { x.move me (.invalidate .forget) with slot := none }
  | forget (me : Actor) (was : x.activity me = .invalidate .forget) :
      Step x { x.move me (.invalidate .absolve) with current := none, memory := none }

/-- A thread that goes on outside the lanes has nothing to do, or is the writer and begins a save. -/
theorem Aside.eq_rest_or {c : Setup σ M} {m m' : Machine σ M} {me : Actor} {o : Outside}
    (h : Aside c m m' me o) : m'.activity me = .rest ∨ m'.activity me = .save .enter := by
  cases h with
  | still _ _ signal now => exact .inl now
  | request i _ _ was signal now => exact .inl now
  | close i _ was signal now => exact .inl now
  | finish _ d was signal now => exact .inl now
  | decide _ d was signal now =>
    rw [Machine.activity, now]
    cases d with
    | flush => exact .inr rfl
    | shutdown pending =>
      simp only [Writer.decided]
      split
      · exact .inr rfl
      · exact .inl rfl

/-- A load that looks for the snapshot in memory goes on as a load. -/
theorem Machine.loading_of_peek {c : Setup σ M} {m m' : Machine σ M} {me : Actor} {o : Outside}
    (h : m.activity me = .load .peek) (hstep : m.step c (.of me o) = some m') :
    ∃ p, m'.activity me = .load p := by
  cases me with
  | writer => cases hw : m.writer <;> simp [activity, Writer.activity, hw] at h
  | caller i =>
    have hi : m.callers i = .loading .peek := by
      cases hi : m.callers i <;> simp [activity, Caller.activity, hi] at h
      rw [h]
    simp only [Label.of, step, stepCaller, hi] at hstep
    obtain ⟨⟨p', s⟩, -, rfl⟩ := Option.map_eq_some_iff.mp hstep
    exact ⟨p', activity_move_self ..⟩

namespace Lineage

variable {c : Setup σ M} {w v : Lineage σ M} {me : Actor} {o : Outside}

/-- What is seen after a step of one thread. -/
private theorem standing_eq {q : Activity M} (now : v.machine.activity me = q)
    (others : ∀ a, a ≠ me → v.machine.activity a = w.machine.activity a) :
    v.standing = {
      toNumbers := v.numbers
      activity := (w.standing.move me q).activity
      current := v.machine.shared.current } := by
  have hactivity : v.machine.activity = Function.update w.machine.activity me q :=
    Function.eq_update_iff.mpr ⟨now, others⟩
  simp only [standing, Standing.move, hactivity]

private theorem step_of_load {p p' : Load M} (was : w.machine.activity me = .load p)
    (now : v.machine.activity me = .load p')
    (others : ∀ a, a ≠ me → v.machine.activity a = w.machine.activity a)
    (step : p.step c me o w.machine.shared = some (p', v.machine.shared))
    (hnumbers : v.numbers = w.numbers.after c me o w.machine.shared (.load p)) :
    w.standing.Step v.standing := by
  have hquiet (hp : p'.isCarrying = true → p.isCarrying = true) (hpeek : p' ≠ .peek)
      (hmiss : p = .peek → w.standing.current = none) :
      w.standing.Step (w.standing.move me (.load p')) := by
    have was' : w.standing.activity me = .load p := was
    refine .quiet me _ ?_ rfl ?_ (fun hq => by cases hq) (by simp) fun q hq => ?_
    · rw [was']
      rfl
    · rw [was']
      exact hp
    · cases hq
      refine ⟨hpeek, p, was', ?_, hmiss⟩
      rintro r rfl
      cases step
  rw [standing_eq now others, hnumbers]
  generalize v.machine.shared = s' at step
  cases p with
  | peek =>
    simp only [Load.step] at step
    split at step <;> rename_i hcurrent <;> cases step
    · simpa [Numbers.after, hcurrent, standing, Standing.move] using
        Standing.Step.hit (x := w.standing) me _ _ hcurrent (.inl ⟨was, rfl⟩)
    · simpa [Numbers.after, hcurrent, standing, Standing.move] using hquiet id (by simp) fun _ => hcurrent
  | recheck =>
    simp only [Load.step] at step
    split at step <;> rename_i hcurrent <;> cases step
    · simpa [Numbers.after, hcurrent, standing, Standing.move] using
        Standing.Step.hit (x := w.standing) me _ _ hcurrent (.inr ⟨was, rfl⟩)
    · simpa [Numbers.after, hcurrent, standing, Standing.move] using
      hquiet id (by simp) (by simp)
  | enter =>
    simp only [Load.step] at step
    split at step <;> cases step
    simpa [Numbers.after, Activity.deed?, standing, Standing.move] using
      hquiet id (by simp) (by simp)
  | consult =>
    cases step
    have hstep := hquiet (by split <;> exact id) (by split <;> simp) (by simp)
    simpa [Numbers.after, Activity.deed?, standing, Standing.move] using hstep
  | fetch =>
    cases step
    simpa [Numbers.after, standing, Standing.move] using Standing.Step.read (x := w.standing) me _ was
  | receive found =>
    have hcurrent : s'.current = w.machine.shared.current := by
      simp only [Load.step] at step
      split at step
      · cases step
        rfl
      · cases step
        rfl
      · split at step <;> cases step <;> rfl
    have hpeek : p' ≠ .peek := by
      rintro rfl
      simp only [Load.step] at step
      split at step
      · cases step
      · cases step
      · split at step <;> cases step
    simpa [Numbers.after, Activity.deed?, standing, Standing.move, hcurrent] using
      hquiet (fun _ => rfl) hpeek (by simp)
  | fail e =>
    cases step
    cases e.isIo <;> simpa [Numbers.after, Activity.deed?, standing, Standing.move] using
      hquiet id (by simp) (by simp)
  | complain e =>
    cases step
    simpa [Numbers.after, Activity.deed?, standing, Standing.move] using
      hquiet id (by simp) (by simp)
  | install header model =>
    simp only [Load.step] at step
    split at step <;> cases step
    simpa [Numbers.after, Activity.deed?, standing, Standing.move] using
      hquiet id (by simp) (by simp)
  | publish header model =>
    cases step
    cases hcurrent : w.machine.shared.current with
    | some kept =>
      simpa [Numbers.after, hcurrent, standing, Standing.move] using
        Standing.Step.follow (x := w.standing) me header model kept was hcurrent
    | none =>
      simpa [Numbers.after, hcurrent, standing, Standing.move] using
        Standing.Step.lead (x := w.standing) me header model was hcurrent
  | leave result =>
    cases step
    simpa [Numbers.after, Activity.deed?, standing, Standing.move] using
      hquiet id (by simp) (by simp)
  | done result => cases step

private theorem step_of_save {p p' : Save M} (was : w.machine.activity me = .save p)
    (now : v.machine.activity me = .save p')
    (others : ∀ a, a ≠ me → v.machine.activity a = w.machine.activity a)
    (step : p.step c me o w.machine.shared = some (p', v.machine.shared))
    (hnumbers : v.numbers = w.numbers.after c me o w.machine.shared (.save p)) :
    w.standing.Step v.standing := by
  have was' : w.standing.activity me = .save p := was
  have hquiet (hp : p.isCommitting = false) (hp' : p'.isCommitting = false) :
      w.standing.Step (w.standing.move me (.save p')) := by
    refine .quiet me _ ?_ hp' (fun hq => by cases hq) (fun hq => by cases hq) (by simp) (by simp)
    rw [was']
    exact hp
  rw [standing_eq now others, hnumbers]
  generalize v.machine.shared = s' at step
  cases p with
  | enter | capture | seed | receive | encode =>
    simp only [Save.step] at step
    split at step <;> cases step <;>
      simpa [Numbers.after, Activity.deed?, Save.deed?, standing, Standing.move] using hquiet rfl rfl
  | write model header blob =>
    simp only [Save.step] at step
    split at step <;> rename_i hwrite <;> cases step
    · simpa [Numbers.after, Activity.deed?, Save.deed?, hwrite, Numbers.note, standing, Standing.move] using
        Standing.Step.write (x := w.standing) me model header blob _ was
    · simpa [Numbers.after, Activity.deed?, Save.deed?, hwrite, standing, Standing.move] using hquiet rfl rfl
  | commit model r =>
    cases step
    simpa [Numbers.after, Activity.deed?, Save.deed?, standing, Standing.move] using
      Standing.Step.commit (x := w.standing) me model r was
  | publish model r =>
    cases step
    simpa [Numbers.after, standing, Standing.move] using
      Standing.Step.settle (x := w.standing) me model r was
  | record | leave =>
    cases step
    simpa [Numbers.after, Activity.deed?, Save.deed?, standing, Standing.move] using hquiet rfl rfl
  | done result => cases step

private theorem step_of_invalidate {p p' : Invalidation} (was : w.machine.activity me = .invalidate p)
    (now : v.machine.activity me = .invalidate p')
    (others : ∀ a, a ≠ me → v.machine.activity a = w.machine.activity a)
    (step : p.step c me o w.machine.shared = some (p', v.machine.shared))
    (hnumbers : v.numbers = w.numbers.after c me o w.machine.shared (.invalidate p)) :
    w.standing.Step v.standing := by
  have was' : w.standing.activity me = .invalidate p := was
  have hquiet (hp : p.isUnderWay = true) (hforget : p' ≠ .forget) :
      w.standing.Step (w.standing.move me (.invalidate p')) := by
    refine .quiet me _ ?_ rfl (fun hq => by cases hq) (fun _ => ?_) (by simpa using hforget) (by simp)
    · rw [was']
      rfl
    · rw [was']
      exact hp
  rw [standing_eq now others, hnumbers]
  generalize v.machine.shared = s' at step
  cases p with
  | cancel | absolve | leave =>
    cases step
    simpa [Numbers.after, Activity.deed?, Invalidation.deed?, standing, Standing.move] using
      hquiet rfl (by simp)
  | enterLoad | enterWrite =>
    simp only [Invalidation.step] at step
    split at step <;> cases step
    simpa [Numbers.after, Activity.deed?, Invalidation.deed?, standing, Standing.move] using
      hquiet rfl (by simp)
  | remove =>
    simp only [Invalidation.step] at step
    split at step <;> rename_i hremove <;> cases step
    · simpa [Numbers.after, Activity.deed?, Invalidation.deed?, hremove, Numbers.note, standing,
        Standing.move] using Standing.Step.remove (x := w.standing) me was
    · simpa [Numbers.after, Activity.deed?, Invalidation.deed?, hremove, standing, Standing.move] using
        hquiet rfl (by simp)
  | forget =>
    cases step
    simpa [Numbers.after, standing, Standing.move] using Standing.Step.forget (x := w.standing) me was
  | done result => cases step

/-- **One step of the whole cache**, for the numbers of the saves. -/
theorem standing_step {l : Machine.Label σ M} (hstep : w.step c l = some v) :
    w.standing.Step v.standing := by
  obtain ⟨m, hm, rfl⟩ := Option.map_eq_some_iff.mp hstep
  cases turn_of_step hm with
  | load me o p p' was now others step =>
    exact step_of_load was now others step (by rw [Numbers.step_of, was])
  | save me o p p' was now others step =>
    exact step_of_save was now others step (by rw [Numbers.step_of, was])
  | invalidate me o p p' was now others step =>
    exact step_of_invalidate was now others step (by rw [Numbers.step_of, was])
  | begin i call last was eq =>
    subst eq
    have hbegin := Standing.Step.begin (x := w.standing) i call (by
      simp only [standing, Machine.activity, was]
      rfl)
    have hview (n : Numbers M) := standing_eq (w := w)
      (v := ⟨w.machine.move i (.start call) w.machine.shared, n⟩)
      (Machine.activity_move_self ..) fun a ha => w.machine.activity_move_of_ne _ _ ha
    rw [hview]
    simpa [standing, Standing.move, Numbers.step, Machine.move] using hbegin
  | edge me o was others core aside =>
    have hedge : m.activity me = .rest ∨ m.activity me = .save .enter := aside.eq_rest_or
    have hpeek : w.machine.activity me ≠ .load .peek := by
      intro hpeek
      obtain ⟨p', hp'⟩ := Machine.loading_of_peek hpeek hm
      rw [hp'] at hedge
      rcases hedge with hedge | hedge <;> cases hedge
    have hsame : w.numbers.after c me o w.machine.shared (w.machine.activity me) = w.numbers := by
      cases ha : w.machine.activity me with
      | rest => rfl
      | load p =>
        rw [ha] at was hpeek
        cases p <;> first | exact absurd rfl hpeek | rfl | cases was
      | save p =>
        rw [ha] at was
        cases p <;> first | rfl | cases was
      | invalidate p =>
        rw [ha] at was
        cases p <;> first | rfl | cases was
    have hquiet : w.standing.Step (w.standing.move me (m.activity me)) := by
      have was' : (w.standing.activity me).isAtEdge = true := was
      refine .quiet me _ ?_ ?_ ?_ ?_ ?_ ?_
      · cases ha : w.standing.activity me with
        | save p =>
          rw [ha] at was'
          cases p <;> first | rfl | cases was'
        | _ => rfl
      all_goals rcases hedge with hedge | hedge <;> rw [hedge] <;> first | rfl | simp [Activity.isCarrying,
        Activity.isInvalidating]
    have hview (n : Numbers M) := standing_eq (w := w) (v := ⟨m, n⟩) rfl others
    rw [hview]
    simpa [standing, Standing.move, Numbers.step_of, hsame, core.current] using hquiet
  | host holder same shared_eq =>
    simpa [standing, same, shared_eq, Numbers.step] using Standing.Step.same (x := w.standing)
  | stranger slot same shared_eq =>
    simpa [standing, same, shared_eq, Numbers.step] using Standing.Step.stranger (x := w.standing)

end Lineage

/-! ### What is always true of the numbers -/

/-- A thread has filled the slot with a model and is about to put it into memory. -/
def Activity.Commits (a : Activity M) (model : M) : Prop :=
  ∃ r, a = .save (.commit model r) ∨ a = .save (.publish model r)

theorem Activity.Commits.isCommitting {a : Activity M} {model : M} (h : a.Commits model) :
    a.isCommitting = true := by
  obtain ⟨r, rfl | rfl⟩ := h <;> rfl

theorem Activity.isCommitting_iff {a : Activity M} :
    a.isCommitting = true ↔ ∃ model, a.Commits model := by
  refine ⟨fun h => ?_, fun ⟨model, h⟩ => h.isCommitting⟩
  cases a with
  | save p =>
    cases p with
    | commit model r => exact ⟨model, r, .inl rfl⟩
    | publish model r => exact ⟨model, r, .inr rfl⟩
    | _ => cases h
  | _ => cases h

theorem Activity.holdsWrite_of_isCommitting {a : Activity M} (h : a.isCommitting = true) :
    a.holdsWrite = true := by
  obtain ⟨model, r, rfl | rfl⟩ := isCommitting_iff.mp h <;> rfl

theorem Activity.holdsLoad_of_isCarrying {a : Activity M} (h : a.isCarrying = true) :
    a.holdsLoad = true := by
  cases a with
  | load p => cases p <;> first | rfl | cases h
  | _ => cases h

namespace Standing

/-- There is a snapshot in memory, or a save is about to put one there. -/
def IsCovered (x : Standing M) : Prop :=
  x.current.isSome = true ∨ ∃ a, (x.activity a).isCommitting = true

/-- What is always true of the numbers. -/
structure Sound (x : Standing M) : Prop where
  memory : ∀ n, x.memory = some n → ∃ model, x.current = some model ∧ x.saved[n]? = some model
  /-- Who is about to put a model into memory has made the last save. -/
  committing : ∀ a model, (x.activity a).Commits model →
    ∃ n, x.made a = some n ∧ n + 1 = x.saved.length ∧ x.saved[n]? = some model
  slot : x.slot.isSome = true → x.IsCovered
  carrying : ∀ a, (x.activity a).isCarrying = true → (x.read a).isSome = true → x.IsCovered
  forgetting : ∀ a, x.activity a = .invalidate .forget → x.slot = none
  made : ∀ a n, x.made a = some n → n < x.saved.length
  got : ∀ a n, x.got a = some n → n < x.saved.length
  peeking : ∀ a, x.activity a = .load .peek → x.got a = none

variable {x y : Standing M} {me : Actor} {q : Activity M}

@[simp] theorem activity_move_self (x : Standing M) (me : Actor) (q : Activity M) :
    (x.move me q).activity me = q := Function.update_self ..

theorem activity_move_of_ne (x : Standing M) {me a : Actor} (q : Activity M) (h : a ≠ me) :
    (x.move me q).activity a = x.activity a := Function.update_of_ne h ..

/-- A step that changes neither what has been saved nor the snapshot in memory keeps what is always true, if
the thread that takes it keeps its part of it. -/
theorem Sound.keep (h : x.Sound) (activity : y.activity = Function.update x.activity me q)
    (saved : y.saved = x.saved) (memory : y.memory = x.memory) (current : y.current = x.current)
    (made : y.made = x.made) (slot : y.slot = x.slot ∨ y.slot = none)
    (committing : ∀ model, (x.activity me).Commits model ↔ q.Commits model)
    (carrying : q.isCarrying = true → (y.read me).isSome = true → x.IsCovered)
    (read : ∀ a, a ≠ me → y.read a = x.read a) (forgetting : q = .invalidate .forget → y.slot = none)
    (got : ∀ n, y.got me = some n → n < x.saved.length) (others : ∀ a, a ≠ me → y.got a = x.got a)
    (peeking : q = .load .peek → y.got me = none) : y.Sound := by
  have hself : y.activity me = q := by rw [activity, Function.update_self]
  have hother {a : Actor} (ha : a ≠ me) : y.activity a = x.activity a := by
    rw [activity, Function.update_of_ne ha]
  have hcovered (hx : x.IsCovered) : y.IsCovered := by
    refine hx.imp (fun hc => by rw [current]; exact hc) fun ⟨a, ha⟩ => ?_
    by_cases heq : a = me
    · obtain ⟨model, hmodel⟩ := Activity.isCommitting_iff.mp ha
      rw [heq] at hmodel
      exact ⟨me, by rw [hself]; exact ((committing model).mp hmodel).isCommitting⟩
    · exact ⟨a, by rw [hother heq]; exact ha⟩
  refine ⟨by rw [memory, current, saved]; exact h.memory, fun a model ha => ?_, fun hy => ?_,
    fun a ha hread => ?_, fun a ha => ?_, by rw [made, saved]; exact h.made, fun a n ha => ?_,
    fun a ha => ?_⟩
  · rw [made, saved]
    by_cases heq : a = me
    · rw [heq, hself] at ha
      rw [heq]
      exact h.committing me model ((committing model).mpr ha)
    · rw [hother heq] at ha
      exact h.committing a model ha
  · rcases slot with slot | slot
    · rw [slot] at hy
      exact hcovered (h.slot hy)
    · rw [slot] at hy
      cases hy
  · by_cases heq : a = me
    · rw [heq, hself] at ha
      rw [heq] at hread
      exact hcovered (carrying ha hread)
    · rw [hother heq] at ha
      rw [read a heq] at hread
      exact hcovered (h.carrying a ha hread)
  · by_cases heq : a = me
    · rw [heq, hself] at ha
      exact forgetting ha
    · rw [hother heq] at ha
      rcases slot with slot | slot
      · rw [slot]
        exact h.forgetting a ha
      · exact slot
  · rw [saved]
    by_cases heq : a = me
    · rw [heq] at ha
      exact got n ha
    · rw [others a heq] at ha
      exact h.got a n ha
  · by_cases heq : a = me
    · rw [heq, hself] at ha
      rw [heq]
      exact peeking ha
    · rw [hother heq] at ha
      rw [others a heq]
      exact h.peeking a ha

/-- What is in memory has been saved before. -/
theorem Sound.lt_of_memory (h : x.Sound) {n : Nat} (hn : x.memory = some n) : n < x.saved.length := by
  obtain ⟨model, -, hsaved⟩ := h.memory n hn
  exact (List.getElem?_eq_some_iff.mp hsaved).1

theorem Sound.memory_eq_none (h : x.Sound) (hcurrent : x.current = none) : x.memory = none := by
  cases hn : x.memory with
  | none => rfl
  | some n =>
    obtain ⟨model, hmodel, -⟩ := h.memory n hn
    rw [hcurrent] at hmodel
    cases hmodel

/-- A load that puts something into memory has not read the blob of a save, for a save is there first. -/
theorem Sound.read_eq_none (h : x.Sound) (apart : Apart x.activity) {header : Snapshot.Header} {model : M}
    (was : x.activity me = .load (.publish header model)) (hcurrent : x.current = none) :
    x.read me = none := by
  by_contra hread
  rcases h.carrying me (by rw [was]; rfl) (Option.isSome_iff_ne_none.mpr hread) with hsome | ⟨a, ha⟩
  · rw [hcurrent] at hsome
    cases hsome
  · have heq : a = me := apart.write a me (Activity.holdsWrite_of_isCommitting ha) (by rw [was]; rfl)
    rw [heq, was] at ha
    cases ha

/-- A load puts something into memory that nobody has saved. -/
theorem Sound.lead (h : x.Sound) (apart : Apart x.activity) {header : Snapshot.Header} {model : M}
    (was : x.activity me = .load (.publish header model)) (hcurrent : x.current = none) :
    Sound { x.move me (.load (.leave (some model))) with
      current := some model, memory := x.read me, got := Function.update x.got me (x.read me) } := by
  have hread := h.read_eq_none apart was hcurrent
  have hkept : Sound
      { x.move me (.load (.leave (some model))) with got := Function.update x.got me none } := by
    refine h.keep rfl rfl rfl rfl rfl (.inl rfl) (fun other => ?_) (fun hq => by cases hq) (fun _ _ => rfl)
      (fun hq => by cases hq) (fun n hn => ?_) (fun a ha => Function.update_of_ne ha ..)
      (fun hq => by cases hq)
    · rw [was]
      constructor <;> rintro ⟨r, hr | hr⟩ <;> cases hr
    · simp only [Function.update_self] at hn
      cases hn
  rw [hread]
  refine ⟨fun n hn => ?_, hkept.committing, fun _ => .inl rfl, fun _ _ _ => .inl rfl, hkept.forgetting,
    hkept.made, hkept.got, hkept.peeking⟩
  cases hn

/-- A save fills the slot. -/
theorem Sound.write (h : x.Sound) (apart : Apart x.activity) {model : M} {header : Snapshot.Header}
    {blob : Bytes} {r : SaveReport} (was : x.activity me = .save (.write model header blob)) :
    Sound { x.move me (.save (.commit model r)) with
      saved := x.saved ++ [model]
      slot := some x.saved.length
      made := Function.update x.made me (some x.saved.length) } := by
  have hlength : (x.saved ++ [model]).length = x.saved.length + 1 := List.length_append ..
  have hcovered : IsCovered { x.move me (.save (.commit model r)) with
      saved := x.saved ++ [model]
      slot := some x.saved.length
      made := Function.update x.made me (some x.saved.length) } := by
    refine .inr ⟨me, ?_⟩
    rw [activity_move_self]
    rfl
  refine ⟨fun n hn => ?_, fun a other ha => ?_, fun _ => hcovered, fun _ _ _ => hcovered, fun a ha => ?_,
    fun a n hn => ?_, fun a n hn => ?_, fun a ha => ?_⟩
  · obtain ⟨kept, hkept, hsaved⟩ := h.memory n hn
    exact ⟨kept, hkept, by rw [List.getElem?_append_left (h.lt_of_memory hn)]; exact hsaved⟩
  · -- nobody else has the write lane
    have heq : a = me := by
      by_contra hne
      rw [activity_move_of_ne _ _ hne] at ha
      exact hne (apart.write a me (Activity.holdsWrite_of_isCommitting ha.isCommitting) (by rw [was]; rfl))
    rw [heq, activity_move_self] at ha
    obtain ⟨r', hr | hr⟩ := ha <;> cases hr
    refine ⟨x.saved.length, ?_, hlength.symm, List.getElem?_concat_length ..⟩
    simp only [heq, Function.update_self]
  · have hne : a ≠ me := by
      rintro rfl
      rw [activity_move_self] at ha
      cases ha
    rw [activity_move_of_ne _ _ hne] at ha
    exact absurd (apart.write a me (by rw [ha]; rfl) (by rw [was]; rfl)) hne
  · rw [hlength]
    by_cases heq : a = me
    · simp only [heq, Function.update_self, Option.some.injEq] at hn
      omega
    · simp only [Function.update_of_ne heq] at hn
      exact Nat.lt_succ_of_lt (h.made a n hn)
  · rw [hlength]
    exact Nat.lt_succ_of_lt (h.got a n hn)
  · have hne : a ≠ me := by
      rintro rfl
      rw [activity_move_self] at ha
      cases ha
    rw [activity_move_of_ne _ _ hne] at ha
    exact h.peeking a ha

/-- A save puts its model into memory. -/
theorem Sound.settle (h : x.Sound) {model : M} {r : SaveReport}
    (was : x.activity me = .save (.publish model r)) :
    Sound { x.move me (.save (.record r)) with current := some model, memory := x.made me } := by
  refine ⟨fun n hn => ?_, fun a other ha => ?_, fun _ => .inl rfl, fun _ _ _ => .inl rfl, fun a ha => ?_,
    h.made, h.got, fun a ha => ?_⟩
  · obtain ⟨n', hn', -, hsaved⟩ := h.committing me model ⟨r, .inr was⟩
    rw [hn', Option.some.injEq] at hn
    exact ⟨model, rfl, hn ▸ hsaved⟩
  · by_cases heq : a = me
    · rw [heq, activity_move_self] at ha
      obtain ⟨r', hr | hr⟩ := ha <;> cases hr
    · rw [activity_move_of_ne _ _ heq] at ha
      exact h.committing a other ha
  · by_cases heq : a = me
    · rw [heq, activity_move_self] at ha
      cases ha
    · rw [activity_move_of_ne _ _ heq] at ha
      exact h.forgetting a ha
  · by_cases heq : a = me
    · rw [heq, activity_move_self] at ha
      cases ha
    · rw [activity_move_of_ne _ _ heq] at ha
      exact h.peeking a ha

/-- An invalidation forgets the snapshot in memory, with both lanes in hand. -/
theorem Sound.forget (h : x.Sound) (apart : Apart x.activity)
    (was : x.activity me = .invalidate .forget) :
    Sound { x.move me (.invalidate .absolve) with current := none, memory := none } := by
  have hslot := h.forgetting me was
  refine ⟨fun n hn => ?_, fun a model ha => ?_, fun hsome => ?_, fun a ha => ?_, fun _ _ => hslot, h.made,
    h.got, fun a ha => ?_⟩
  · cases hn
  · by_cases heq : a = me
    · rw [heq, activity_move_self] at ha
      obtain ⟨r', hr | hr⟩ := ha <;> cases hr
    · rw [activity_move_of_ne _ _ heq] at ha
      exact h.committing a model ha
  · have hsome : x.slot.isSome = true := hsome
    rw [hslot] at hsome
    cases hsome
  · have hne : a ≠ me := by
      rintro rfl
      rw [activity_move_self] at ha
      cases ha
    rw [activity_move_of_ne _ _ hne] at ha
    exact absurd (apart.load a me (Activity.holdsLoad_of_isCarrying ha) (by rw [was]; rfl)) hne
  · by_cases heq : a = me
    · rw [heq, activity_move_self] at ha
      cases ha
    · rw [activity_move_of_ne _ _ heq] at ha
      exact h.peeking a ha

/-- **Every step keeps** what is always true of the numbers. -/
theorem Sound.step (h : x.Sound) (apart : Apart x.activity) (hstep : x.Step y) : y.Sound := by
  cases hstep with
  | same => exact h
  | stranger =>
    refine ⟨h.memory, h.committing, fun hslot => ?_, h.carrying, fun _ _ => rfl, h.made, h.got, h.peeking⟩
    cases hslot
  | begin i call was =>
    refine h.keep rfl rfl rfl rfl rfl (.inl rfl) (fun model => ?_) ?_ (fun _ _ => rfl) ?_ (fun n hn => ?_)
      (fun a ha => Function.update_of_ne ha ..) (fun _ => Function.update_self ..)
    · rw [was]
      constructor
      · rintro ⟨r, hr | hr⟩ <;> cases hr
      · rintro ⟨r, hr | hr⟩ <;> cases call <;> cases hr
    · intro hcarrying
      cases call <;> cases hcarrying
    · intro hforget
      cases call <;> cases hforget
    · simp only [Function.update_self] at hn
      cases hn
  | quiet me q was committing carrying invalidating forget loading =>
    refine h.keep rfl rfl rfl rfl rfl (.inl rfl) (fun model => ?_) (fun hq hread => ?_) (fun _ _ => rfl)
      (fun hq => absurd hq forget) (fun n hn => h.got me n hn) (fun _ _ => rfl) (fun hq => ?_)
    · constructor <;> intro hmodel
      · rw [hmodel.isCommitting] at was
        cases was
      · rw [hmodel.isCommitting] at committing
        cases committing
    · exact h.carrying me (carrying hq) hread
    · exact absurd rfl (loading _ hq).1
  | hit me model q current place =>
    refine h.keep rfl rfl rfl rfl rfl (.inl rfl) (fun model => ?_) (fun hq => ?_) (fun _ _ => rfl)
      (fun hq => by cases hq) (fun n hn => ?_) (fun a ha => Function.update_of_ne ha ..) (fun hq => ?_)
    · rcases place with ⟨was, -⟩ | ⟨was, -⟩ <;> rw [was] <;> constructor <;> rintro ⟨r, hr | hr⟩ <;> cases hr
    · rcases place with ⟨-, rfl⟩ | ⟨-, rfl⟩ <;> cases hq
    · simp only [Function.update_self] at hn
      exact h.lt_of_memory hn
    · rcases place with ⟨-, rfl⟩ | ⟨-, rfl⟩ <;> cases hq
  | read me found was =>
    refine h.keep rfl rfl rfl rfl rfl (.inl rfl) (fun model => ?_) (fun _ hread => ?_)
      (fun a ha => Function.update_of_ne ha ..) (fun hq => by cases hq) (fun n hn => h.got me n hn)
      (fun _ _ => rfl) (fun hq => by cases hq)
    · rw [was]
      constructor <;> rintro ⟨r, hr | hr⟩ <;> cases hr
    -- what is read is what is in the slot
    · simp only [Function.update_self] at hread
      exact h.slot hread
  | follow me header model kept was current =>
    refine h.keep rfl rfl rfl rfl rfl (.inl rfl) (fun model => ?_) (fun hq => by cases hq) (fun _ _ => rfl)
      (fun hq => by cases hq) (fun n hn => ?_) (fun a ha => Function.update_of_ne ha ..)
      (fun hq => by cases hq)
    · rw [was]
      constructor <;> rintro ⟨r, hr | hr⟩ <;> cases hr
    · simp only [Function.update_self] at hn
      exact h.lt_of_memory hn
  | lead me header model was current =>
    exact h.lead apart was current
  | commit me model r was =>
    refine h.keep rfl rfl rfl rfl rfl (.inl rfl) (fun other => ?_) (fun hq => by cases hq) (fun _ _ => rfl)
      (fun hq => by cases hq) (fun n hn => h.got me n hn) (fun _ _ => rfl) (fun hq => by cases hq)
    rw [was]
    constructor <;> rintro ⟨r', hr | hr⟩ <;> cases hr
    · exact ⟨r, .inr rfl⟩
    · exact ⟨r, .inl rfl⟩
  | remove me was =>
    refine h.keep rfl rfl rfl rfl rfl (.inr rfl) (fun model => ?_) (fun hq => by cases hq) (fun _ _ => rfl)
      (fun _ => rfl) (fun n hn => h.got me n hn) (fun _ _ => rfl) (fun hq => by cases hq)
    rw [was]
    constructor <;> rintro ⟨r, hr | hr⟩ <;> cases hr
  | write me model header blob r was => exact h.write apart was
  | settle me model r was => exact h.settle was
  | forget me was => exact h.forget apart was

/-! ### As long as nobody invalidates the cache -/

/-- The model in memory is that of the save `n` or of a later one. -/
def Reaches (x : Standing M) (n : Nat) : Prop := ∃ m, x.memory = some m ∧ n ≤ m

/-- Nobody invalidates the cache. -/
def IsCalm (x : Standing M) : Prop := ∀ a, (x.activity a).isInvalidating = false

/-- What saves from number `since` on have put into memory is still there, or something later, and so is what
the thread `reader` has got, from number `from_` on. -/
structure Kept (since from_ : Nat) (reader : Actor) (x : Standing M) : Prop where
  made : ∀ a n, x.made a = some n → since ≤ n → (x.activity a).isCommitting = true ∨ x.Reaches n
  got : ∀ n, x.got reader = some n → from_ ≤ n → x.Reaches n

/-- What has been saved stays saved. -/
theorem Step.saved (hstep : x.Step y) {n : Nat} {model : M} (h : x.saved[n]? = some model) :
    y.saved[n]? = some model := by
  cases hstep with
  | write me other header blob r was =>
    have hn : n < x.saved.length := (List.getElem?_eq_some_iff.mp h).1
    exact (List.getElem?_append_left hn).trans h
  | _ => exact h

/-- **The memory never goes back** while nobody invalidates the cache. -/
theorem Reaches.step {n : Nat} (h : x.Reaches n) (sound : x.Sound) (calm : x.IsCalm) (hstep : x.Step y) :
    y.Reaches n := by
  obtain ⟨m, hm, hle⟩ := h
  cases hstep with
  | lead me header model was current =>
    -- there would be something in memory already
    rw [sound.memory_eq_none current] at hm
    cases hm
  | settle me model r was =>
    obtain ⟨k, hk, hlast, -⟩ := sound.committing me model ⟨r, .inr was⟩
    have hlt := sound.lt_of_memory hm
    exact ⟨k, hk, by omega⟩
  | forget me was =>
    have hme := calm me
    rw [was] at hme
    cases hme
  | _ => exact ⟨m, hm, hle⟩

/-- A save that puts its model into memory is not behind any other. -/
theorem Sound.reaches_of_publish (h : x.Sound) {model : M} {r : SaveReport}
    (was : x.activity me = .save (.publish model r)) {a : Actor} {n : Nat} (hn : x.made a = some n) :
    Reaches { x.move me (.save (.record r)) with current := some model, memory := x.made me } n := by
  obtain ⟨k, hk, hlast, -⟩ := h.committing me model ⟨r, .inr was⟩
  have hlt := h.made a n hn
  exact ⟨k, hk, by omega⟩

section Kept

variable {since from_ : Nat} {reader : Actor}

/-- A step that neither makes a save nor puts anything into memory. -/
private theorem Kept.keep (h : x.Kept since from_ reader)
    (activity : y.activity = Function.update x.activity me q)
    (memory : y.memory = x.memory) (made : y.made = x.made)
    (committing : (x.activity me).isCommitting = true → q.isCommitting = true)
    (got : ∀ n, y.got me = some n → x.got me = some n ∨ x.memory = some n)
    (others : ∀ a, a ≠ me → y.got a = x.got a) : y.Kept since from_ reader := by
  have hreaches {n : Nat} : y.Reaches n ↔ x.Reaches n := by rw [Reaches, Reaches, memory]
  refine ⟨fun a n hn hle => ?_, fun n hn hle => ?_⟩
  · rw [made] at hn
    rw [hreaches]
    refine (h.made a n hn hle).imp_left fun ha => ?_
    by_cases heq : a = me
    · rw [heq, activity, Function.update_self]
      exact committing (heq ▸ ha)
    · rw [activity, Function.update_of_ne heq]
      exact ha
  · rw [hreaches]
    by_cases heq : reader = me
    · rw [heq] at hn
      rcases got n hn with hn | hn
      · exact h.got n (by rw [heq]; exact hn) hle
      · exact ⟨n, hn, Nat.le_refl n⟩
    · rw [others reader heq] at hn
      exact h.got n hn hle

/-- **Every step keeps it** that saves and what has been got stay in memory, or something later. -/
theorem Kept.step (h : x.Kept since from_ reader) (sound : x.Sound) (apart : Apart x.activity)
    (calm : x.IsCalm) (hstep : x.Step y) : y.Kept since from_ reader := by
  cases hstep with
  | same => exact h
  | stranger => exact ⟨h.made, h.got⟩
  | begin i call was =>
    refine h.keep rfl rfl rfl (fun hme => ?_) (fun n hn => ?_) (fun a ha => Function.update_of_ne ha ..)
    · rw [was] at hme
      cases hme
    · simp only [Function.update_self] at hn
      cases hn
  | quiet me q was committing carrying invalidating forget loading =>
    refine h.keep rfl rfl rfl (fun hme => ?_) (fun n hn => .inl hn) (fun _ _ => rfl)
    rw [hme] at was
    cases was
  | hit me model q current place =>
    refine h.keep rfl rfl rfl (fun hme => ?_) (fun n hn => ?_) (fun a ha => Function.update_of_ne ha ..)
    · rcases place with ⟨was, -⟩ | ⟨was, -⟩ <;> rw [was] at hme <;> cases hme
    · simp only [Function.update_self] at hn
      exact .inr hn
  | read me found was =>
    refine h.keep rfl rfl rfl (fun hme => ?_) (fun n hn => .inl hn) (fun _ _ => rfl)
    rw [was] at hme
    cases hme
  | follow me header model kept was current =>
    refine h.keep rfl rfl rfl (fun hme => ?_) (fun n hn => ?_) (fun a ha => Function.update_of_ne ha ..)
    · rw [was] at hme
      cases hme
    · simp only [Function.update_self] at hn
      exact .inr hn
  | lead me header model was current =>
    -- nothing that has been saved since can have got lost
    have hread := sound.read_eq_none apart was current
    have hmemory := sound.memory_eq_none current
    have hempty (n : Nat) : ¬ x.Reaches n := by
      rintro ⟨m, hm, -⟩
      rw [hmemory] at hm
      cases hm
    refine ⟨fun a n hn hle => ?_, fun n hn hle => ?_⟩
    · rcases h.made a n hn hle with ha | hreaches
      · have heq : a = me := apart.write a me (Activity.holdsWrite_of_isCommitting ha) (by rw [was]; rfl)
        rw [heq, was] at ha
        cases ha
      · exact absurd hreaches (hempty n)
    · by_cases heq : reader = me
      · simp only [heq, Function.update_self, hread] at hn
        cases hn
      · simp only [Function.update_of_ne heq] at hn
        exact absurd (h.got n hn hle) (hempty n)
  | write me model header blob r was =>
    refine ⟨fun a n hn hle => ?_, h.got⟩
    by_cases heq : a = me
    · refine .inl ?_
      rw [heq, activity_move_self]
      rfl
    · simp only [Function.update_of_ne heq] at hn
      rw [activity_move_of_ne _ _ heq]
      exact h.made a n hn hle
  | commit me model r was => exact h.keep rfl rfl rfl (fun _ => rfl) (fun n hn => .inl hn) (fun _ _ => rfl)
  | settle me model r was =>
    refine ⟨fun a n hn _ => .inr (sound.reaches_of_publish was hn), fun n hn hle => ?_⟩
    exact (h.got n hn hle).step sound calm (.settle me model r was)
  | remove me was =>
    refine h.keep rfl rfl rfl (fun hme => ?_) (fun n hn => .inl hn) (fun _ _ => rfl)
    rw [was] at hme
    cases hme
  | forget me was =>
    have hme := calm me
    rw [was] at hme
    cases hme

end Kept

/-! ### What a load comes to -/

/-- A thread that loads something is about to look for the snapshot in memory, or has found that of the save
`k` or of a later one. -/
def Serves (x : Standing M) (k : Nat) (a : Actor) : Prop :=
  ∀ p, x.activity a = .load p → p = .peek ∨ ∃ result, p = .done result ∧ x.IsSince k result

theorem Step.isSince (hstep : x.Step y) {k : Nat} {result : Option M} (h : x.IsSince k result) :
    y.IsSince k result := by
  obtain ⟨n, model, rfl, hle, hsaved⟩ := h
  exact ⟨n, model, rfl, hle, hstep.saved hsaved⟩

/-- A step of one thread makes no difference to the loads of the others. -/
private theorem Serves.move {k : Nat} {a : Actor} (h : x.Serves k a) (hstep : x.Step y)
    (activity : y.activity = Function.update x.activity me q)
    (hq : a = me → ∀ p, q = .load p → p = .peek ∨ ∃ result, p = .done result ∧ y.IsSince k result) :
    y.Serves k a := by
  intro p hp
  by_cases heq : a = me
  · rw [activity, heq, Function.update_self] at hp
    exact hq heq p hp
  · rw [activity, Function.update_of_ne heq] at hp
    exact (h p hp).imp_right fun ⟨result, hdone, hresult⟩ => ⟨result, hdone, hstep.isSince hresult⟩

/-- **Every step keeps it** that a load finds what has been saved. -/
theorem Serves.step {k : Nat} {a : Actor} (h : x.Serves k a) (sound : x.Sound) (reaches : x.Reaches k)
    (hstep : x.Step y) : y.Serves k a := by
  obtain ⟨m, hm, hle⟩ := reaches
  obtain ⟨kept, hkept, hsaved⟩ := sound.memory m hm
  -- the load stands nowhere else
  have hplace {p : Load M} (hp : x.activity a = .load p) (hpeek : p ≠ .peek) (hdone : ∀ r, p ≠ .done r) :
      False := by
    rcases h p hp with rfl | ⟨r, rfl, -⟩
    · exact hpeek rfl
    · exact hdone r rfl
  have hstep' := hstep
  cases hstep with
  | same => exact h
  | stranger => exact fun p hp => h p hp
  | begin i call was =>
    refine h.move hstep' rfl fun _ p hp => .inl ?_
    cases call <;> cases hp
    rfl
  | quiet me q was committing carrying invalidating forget loading =>
    refine h.move hstep' rfl fun heq p hp => ?_
    obtain ⟨-, p', hp', hdone, hmiss⟩ := loading p hp
    have hpeek : p' ≠ .peek := by
      rintro rfl
      rw [hmiss rfl] at hkept
      cases hkept
    exact (hplace (heq ▸ hp') hpeek hdone).elim
  | hit me model q current place =>
    refine h.move hstep' rfl fun heq p hp => ?_
    cases hp
    rw [current, Option.some.injEq] at hkept
    subst hkept
    rcases place with ⟨-, rfl⟩ | ⟨was, rfl⟩
    · exact .inr ⟨some model, rfl, m, model, rfl, hle, hsaved⟩
    · exact (hplace (heq ▸ was) (by simp) (by simp)).elim
  | read me found was =>
    exact h.move hstep' rfl fun heq _ _ => (hplace (heq ▸ was) (by simp) (by simp)).elim
  | follow me header model kept was current =>
    exact h.move hstep' rfl fun heq _ _ => (hplace (heq ▸ was) (by simp) (by simp)).elim
  | lead me header model was current =>
    rw [current] at hkept
    cases hkept
  | write me | commit me | settle me | remove me | forget me =>
    refine h.move hstep' rfl fun _ p hp => ?_
    cases hp

end Standing

/-! ### Whole runs -/

namespace Lineage

variable {c : Setup σ M} {w v : Lineage σ M} {l : Machine.Label σ M}

/-- As long as nobody asks for an invalidation, there is none. -/
theorem isCalm_of_step (h : w.standing.IsCalm) (hl : ∀ i, l ≠ .call i .invalidate)
    (hstep : w.step c l = some v) : v.standing.IsCalm := by
  obtain ⟨m, hm, rfl⟩ := Option.map_eq_some_iff.mp hstep
  intro a
  have hcalm : (w.machine.activity a).isInvalidating = false := h a
  show (m.activity a).isInvalidating = false
  cases (turn_of_step hm).course a with
  | same eq => rw [eq, hcalm]
  | load o p p' label was now step | save o p p' label was now step =>
    rw [now]
    rfl
  | invalidate o p p' label was now step =>
    rw [was] at hcalm
    cases p <;> cases hcalm
    cases step
  | begin i call label was now =>
    rw [now]
    cases call with
    | invalidate => exact absurd label (hl i)
    | _ => rfl
  | edge o label was aside => rcases aside.eq_rest_or with now | now <;> rw [now] <;> rfl

/-- What is always true of the numbers, and of the lanes. -/
theorem sound_of_run {slot : σ} {holder : Holder M} {reports : Reports} {ls : List (Machine.Label σ M)}
    (hrun : run (Lineage.step c) (.start slot holder reports) ls = some w) :
    w.machine.Lanes ∧ w.standing.Sound := by
  refine run_induction (P := fun w : Lineage σ M => w.machine.Lanes ∧ w.standing.Sound) (Q := fun _ => True)
    hrun (fun _ _ => trivial) ⟨Machine.lanes_start .., ?_⟩ ?_
  · have hidle (a : Actor) : (Lineage.start slot holder reports).standing.activity a = .rest := by
      cases a <;> rfl
    refine ⟨fun n hn => ?_, fun a model ha => ?_, fun hslot => ?_, fun a ha => ?_, fun _ _ => rfl,
      fun a n hn => ?_, fun a n hn => ?_, fun _ _ => rfl⟩
    · cases hn
    · rw [hidle] at ha
      obtain ⟨r, hr | hr⟩ := ha <;> cases hr
    · cases hslot
    · rw [hidle] at ha
      cases ha
    · cases hn
    · cases hn
  · rintro w l v ⟨hlanes, hsound⟩ - hstep
    have hstanding := hsound.step hlanes.apart (standing_step hstep)
    obtain ⟨m, hm, rfl⟩ := Option.map_eq_some_iff.mp hstep
    exact ⟨hlanes.turn (turn_of_step hm), hstanding⟩

/-- What is always true, and nobody is invalidating the cache. -/
structure Quiet (w : Lineage σ M) : Prop where
  lanes : w.machine.Lanes
  sound : w.standing.Sound
  calm : w.standing.IsCalm

/-- Nobody asks for an invalidation. -/
def IsCalmLabel (l : Machine.Label σ M) : Prop :=
  ∀ i, l ≠ .call i .invalidate

theorem Quiet.step (h : w.Quiet) (hl : IsCalmLabel l) (hstep : w.step c l = some v) : v.Quiet := by
  have hcalm := isCalm_of_step h.calm hl hstep
  have hsound := h.sound.step h.lanes.apart (standing_step hstep)
  obtain ⟨m, hm, rfl⟩ := Option.map_eq_some_iff.mp hstep
  exact ⟨h.lanes.turn (turn_of_step hm), hsound, hcalm⟩

/-- **Induction along a run** in which nobody asks for an invalidation. -/
theorem calm_induction {P : Lineage σ M → Prop} {ls : List (Machine.Label σ M)}
    (hrun : run (Lineage.step c) w ls = some v) (hls : ∀ l ∈ ls, IsCalmLabel l) (quiet : w.Quiet) (hw : P w)
    (hstep : ∀ w l v, w.Quiet → P w → w.step c l = some v → P v) : v.Quiet ∧ P v :=
  run_induction (P := fun v : Lineage σ M => v.Quiet ∧ P v) hrun hls ⟨quiet, hw⟩
    fun w l v hw hl hs => ⟨hw.1.step hl hs, hstep w l v hw.1 hw.2 hs⟩

/-- The save `k` has returned: its thread has come to the end of it. -/
def HasReturned (w : Lineage σ M) (k : Nat) : Prop :=
  ∃ a, w.numbers.made a = some k ∧ (w.machine.activity a).isAtEdge = true

/-- A caller has been given the model of the save `k` by its last load. -/
def HasLoaded (w : Lineage σ M) (i : ThreadId) (k : Nat) : Prop :=
  ∃ model, w.machine.callers i = .done (.loaded (some model)) ∧ w.numbers.got (.caller i) = some k

/-- Whatever a caller has been told by its last load is the model of the save `k` or of a later one. -/
def Answers (w : Lineage σ M) (k : Nat) (j : ThreadId) : Prop :=
  ∀ r, w.machine.callers j = .done (.loaded r) → w.numbers.IsSince k r

/-- What a caller is told is what its load has come to. -/
theorem Answers.step {k : Nat} {j : ThreadId} (h : w.Answers k j) (serves : w.standing.Serves k (.caller j))
    (hstep : w.step c l = some v) : v.Answers k j := by
  intro r hr
  have hsince : w.standing.IsSince k r := by
    obtain ⟨m, hm, rfl⟩ := Option.map_eq_some_iff.mp hstep
    rcases place_of_answer hm hr rfl with hbefore | hbefore
    · exact h r hbefore
    · have hplace : w.standing.activity (.caller j) = .load (.done r) := by
        simp only [standing, Machine.activity, hbefore]
        rfl
      rcases serves _ hplace with hpeek | ⟨r', hdone, hresult⟩
      · cases hpeek
      · cases hdone
        exact hresult
  exact (standing_step hstep).isSince hsince

/-- A load that is about to look for the snapshot in memory, with one there, or that has come to its end is
two steps away from its answer, or one. -/
theorem exists_answer {m : Machine σ M} {j : ThreadId} {p : Load M} (hp : m.callers j = .loading p)
    (hplace : p = .peek ∧ m.shared.current.isSome = true ∨ ∃ result, p = .done result) (o : Outside) :
    ∃ n ≤ 2, ∃ m' r, run (Machine.step c) m (List.replicate n (.caller j o)) = some m' ∧
      m'.callers j = .done (.loaded r) := by
  have hdone {m : Machine σ M} {result : Option M} (hm : m.callers j = .loading (.done result)) :
      m.step c (.caller j o) = some (m.move j (.done (.loaded result)) m.shared) := by
    simp only [Machine.step, Machine.stepCaller, hm]
  rcases hplace with ⟨rfl, hcurrent⟩ | ⟨result, rfl⟩
  · obtain ⟨model, hmodel⟩ := Option.isSome_iff_exists.mp hcurrent
    obtain ⟨m₁, hfind, hfound⟩ : ∃ m₁, m.step c (.caller j o) = some m₁ ∧
        m₁.callers j = .loading (.done (some model)) := by
      simp only [Machine.step, Machine.stepCaller, hp, Load.step, hmodel, Option.map_some]
      exact ⟨_, rfl, Machine.callers_move_self ..⟩
    refine ⟨2, Nat.le_refl 2, m₁.move j (.done (.loaded (some model))) m₁.shared, some model, ?_,
      Machine.callers_move_self ..⟩
    rw [List.replicate_succ, run_cons, hfind, Option.bind_some, List.replicate_one, run_singleton]
    exact hdone hfound
  · refine ⟨1, by omega, m.move j (.done (.loaded result)) m.shared, result, ?_,
      Machine.callers_move_self ..⟩
    rw [List.replicate_one, run_singleton]
    exact hdone hp

/-- A load begins with a look for the snapshot in memory. -/
theorem callers_of_begin {ls : List (Machine.Label σ M)} {j : ThreadId}
    (hrun : run (Lineage.step c) w (ls ++ [.call j .load]) = some v) :
    v.machine.callers j = .loading .peek := by
  rw [run_append, Option.bind_eq_some_iff] at hrun
  obtain ⟨u, -, hu⟩ := hrun
  rw [run_singleton] at hu
  obtain ⟨m, hm, rfl⟩ := Option.map_eq_some_iff.mp hu
  simp only [Machine.step] at hm
  split at hm <;> cases hm
  exact Machine.callers_move_self ..

/-- Who has made the save `k` and is at the edge has put it into memory, if nobody has invalidated the cache
since; and who has been given it has found it there. -/
theorem reaches_of_known {ls : List (Machine.Label σ M)} {k : Nat} {i : ThreadId} (quiet : w.Quiet)
    (hrun : run (Lineage.step c) w ls = some v) (hls : ∀ l ∈ ls, IsCalmLabel l)
    (hk : w.numbers.saved.length ≤ k ∧ (v.HasReturned k ∨ v.HasLoaded i k) ∨
      w.machine.callers i = .loading .peek ∧ v.HasLoaded i k) :
    v.Quiet ∧ v.standing.Reaches k := by
  have hkept {since start : Nat} (hw : w.standing.Kept since start (.caller i)) :=
    calm_induction (P := fun w => w.standing.Kept since start (.caller i)) hrun hls quiet hw
      fun w l v quiet hw hs => hw.step quiet.sound quiet.lanes.apart quiet.calm (standing_step hs)
  have hmade (a : Actor) (n : Nat) (hn : w.standing.made a = some n) (hle : w.numbers.saved.length ≤ n) :
      False := absurd (quiet.sound.made a n hn) (Nat.not_lt.mpr hle)
  rcases hk with ⟨hle, hk⟩ | ⟨hpeek, model, -, hgot⟩
  · -- nothing has been made or got yet that counts
    have hw : w.standing.Kept w.numbers.saved.length w.numbers.saved.length (.caller i) :=
      ⟨fun a n hn hle => (hmade a n hn hle).elim,
        fun n hn hle => absurd (quiet.sound.got _ n hn) (Nat.not_lt.mpr hle)⟩
    obtain ⟨hquiet, kept⟩ := hkept hw
    refine ⟨hquiet, ?_⟩
    rcases hk with ⟨a, ha, hedge⟩ | ⟨model, -, hgot⟩
    · refine (kept.made a k ha hle).resolve_left fun hcommitting => ?_
      have hwrite := Activity.holdsWrite_of_isCommitting hcommitting
      rw [show v.standing.activity a = v.machine.activity a from rfl,
        Activity.holdsWrite_of_isAtEdge hedge] at hwrite
      cases hwrite
    · exact kept.got k hgot hle
  · -- the load has got nothing yet
    have hnone : w.standing.got (.caller i) = none := by
      refine quiet.sound.peeking _ ?_
      rw [show w.standing.activity (.caller i) = (w.machine.callers i).activity from rfl, hpeek]
      rfl
    have hw : w.standing.Kept w.numbers.saved.length 0 (.caller i) := by
      refine ⟨fun a n hn hle => (hmade a n hn hle).elim, fun n hn _ => ?_⟩
      rw [hnone] at hn
      cases hn
    obtain ⟨hquiet, kept⟩ := hkept hw
    exact ⟨hquiet, kept.got k hgot (Nat.zero_le k)⟩

/-- A load that begins when the snapshot in memory is that of the save `k` or of a later one is served by
it. -/
theorem served_of_run {ls : List (Machine.Label σ M)} {k : Nat} {j : ThreadId} (quiet : w.Quiet)
    (reaches : w.standing.Reaches k) (hpeek : w.machine.callers j = .loading .peek)
    (hrun : run (Lineage.step c) w ls = some v) (hls : ∀ l ∈ ls, IsCalmLabel l) :
    v.Quiet ∧ v.standing.Reaches k ∧ v.standing.Serves k (.caller j) ∧ v.Answers k j := by
  have hserves : w.standing.Serves k (.caller j) := by
    intro p hp
    rw [show w.standing.activity (.caller j) = (w.machine.callers j).activity from rfl, hpeek] at hp
    cases hp
    exact .inl rfl
  have hanswers : w.Answers k j := by
    intro r hr
    rw [hpeek] at hr
    cases hr
  refine calm_induction (P := fun w : Lineage σ M => w.standing.Reaches k ∧
    w.standing.Serves k (.caller j) ∧ w.Answers k j) hrun hls quiet ⟨reaches, hserves, hanswers⟩ ?_
  rintro w l v quiet ⟨reaches, serves, answers⟩ hs
  have hstanding := standing_step hs
  exact ⟨reaches.step quiet.sound quiet.calm hstanding, serves.step quiet.sound reaches hstanding,
    answers.step serves hs⟩

end Lineage

variable {c : Setup σ M}

/-- **Loads never go back.** Let nobody be invalidating the cache at some time, nor ask for it later, and let
the save `k` be made after this time and return, or let a load that begins then, or any load if the save is
made after this time, return the model of the save `k`.  Then every load that begins afterwards comes to an
answer, however many saves and loads there are, after at most two further steps of its own, and answers with
the model of the save `k` or of a later one. -/
theorem loads_never_go_back {slot : σ} {holder : Holder M} {reports : Reports}
    {ls₀ ls₁ ls₂ ls₃ : List (Machine.Label σ M)} {w₀ w₁ w₂ w₃ : Lineage σ M} {k : Nat} {i j : ThreadId}
    (h₀ : run (Lineage.step c) (.start slot holder reports) ls₀ = some w₀)
    (calm : ∀ a, (w₀.machine.activity a).isInvalidating = false)
    (h₁ : run (Lineage.step c) w₀ ls₁ = some w₁)
    (hk : w₀.numbers.saved.length ≤ k ∧ (w₁.HasReturned k ∨ w₁.HasLoaded i k) ∨
      w₀.machine.callers i = .loading .peek ∧ w₁.HasLoaded i k)
    (h₂ : run (Lineage.step c) w₁ (ls₂ ++ [.call j .load]) = some w₂)
    (h₃ : run (Lineage.step c) w₂ ls₃ = some w₃)
    (hno : ∀ l ∈ ls₁ ++ ls₂ ++ ls₃, ∀ i, l ≠ .call i .invalidate) :
    (∀ r, w₃.machine.callers j = .done (.loaded r) → w₃.numbers.IsSince k r) ∧
      ∀ p o, w₃.machine.callers j = .loading p → ∃ n ≤ 2, ∃ v r,
        run (Lineage.step c) w₃ (List.replicate n (.caller j o)) = some v ∧
          v.machine.callers j = .done (.loaded r) ∧ v.numbers.IsSince k r := by
  have hno₁ : ∀ l ∈ ls₁, Lineage.IsCalmLabel l := fun l hl => hno l (by simp [hl])
  have hno₂ : ∀ l ∈ ls₂ ++ [.call j .load], Lineage.IsCalmLabel l := by
    intro l hl
    rcases List.mem_append.mp hl with hl | hl
    · exact hno l (by simp [hl])
    · rw [List.mem_singleton.mp hl]
      simp [Lineage.IsCalmLabel]
  have hno₃ : ∀ l ∈ ls₃, Lineage.IsCalmLabel l := fun l hl => hno l (by simp [hl])
  obtain ⟨lanes, sound⟩ := Lineage.sound_of_run h₀
  obtain ⟨quiet₁, reaches₁⟩ := Lineage.reaches_of_known ⟨lanes, sound, calm⟩ h₁ hno₁ hk
  obtain ⟨quiet₂, reaches₂⟩ := Lineage.calm_induction (P := fun w => w.standing.Reaches k) h₂ hno₂ quiet₁
    reaches₁ fun w l v quiet hw hs => hw.step quiet.sound quiet.calm (Lineage.standing_step hs)
  have hpeek := Lineage.callers_of_begin h₂
  obtain ⟨quiet₃, ⟨m, hm, hle⟩, serves₃, answers₃⟩ := Lineage.served_of_run quiet₂ reaches₂ hpeek h₃ hno₃
  refine ⟨answers₃, fun p o hp => ?_⟩
  -- there is a snapshot in memory, and the load looks there or has been there
  have hplace : p = .peek ∧ w₃.machine.shared.current.isSome = true ∨ ∃ result, p = .done result := by
    have hactivity : w₃.standing.activity (.caller j) = .load p := by
      rw [show w₃.standing.activity (.caller j) = (w₃.machine.callers j).activity from rfl, hp]
      rfl
    refine (serves₃ p hactivity).imp (fun hpeek => ⟨hpeek, ?_⟩) fun ⟨result, hdone, _⟩ => ⟨result, hdone⟩
    obtain ⟨model, hmodel, -⟩ := quiet₃.sound.memory m hm
    exact Option.isSome_iff_exists.mpr ⟨model, hmodel⟩
  obtain ⟨n, hn, m', r, hrun, hr⟩ := Lineage.exists_answer hp hplace o
  obtain ⟨v, hv, rfl⟩ := Lineage.exists_run hrun
  have hall : run (Lineage.step c) w₂ (ls₃ ++ List.replicate n (.caller j o)) = some v := by
    rw [run_append, h₃, Option.bind_some, hv]
  obtain ⟨-, -, -, answers⟩ := Lineage.served_of_run quiet₂ reaches₂ hpeek hall fun l hl => by
    rcases List.mem_append.mp hl with hl | hl
    · exact hno₃ l hl
    · rw [List.eq_of_mem_replicate hl]
      simp [Lineage.IsCalmLabel]
  exact ⟨n, hn, v, r, hv, hr, answers r hr⟩

/-- A save from the beginning to the end. -/
def savingRun : List (Machine.Label MemorySlot Value) := .call 0 .save :: List.replicate 11 (.caller 0 {})

/-- After a save a load answers with what has been saved. -/
theorem loads_never_go_back_text :
    ∃ w₁ w₂, run (Lineage.step textSetup) (.start {} { current := some (.string "a") } {})
      savingRun = some w₁ ∧
      w₁.HasReturned 0 ∧
      run (Lineage.step textSetup) w₁ ([] ++ [.call 1 .load]) = some w₂ ∧
      ∃ n ≤ 2, ∃ v r, run (Lineage.step textSetup) w₂ (List.replicate n (.caller 1 {})) = some v ∧
        v.machine.callers 1 = .done (.loaded r) ∧ v.numbers.IsSince 0 r := by
  obtain ⟨w₁, w₂, h₁, hmade, hedge, h₂, hpeek⟩ : ∃ w₁ w₂,
      run (Lineage.step textSetup) (.start {} { current := some (.string "a") } {}) savingRun = some w₁ ∧
        w₁.numbers.made (.caller 0) = some 0 ∧ (w₁.machine.activity (.caller 0)).isAtEdge = true ∧
          run (Lineage.step textSetup) w₁ ([] ++ [.call 1 .load]) = some w₂ ∧
            w₂.machine.callers 1 = .loading .peek := ⟨_, _, rfl, rfl, rfl, rfl, rfl⟩
  have hreturned : w₁.HasReturned 0 := ⟨.caller 0, hmade, hedge⟩
  have h₀ : run (Lineage.step textSetup) (.start {} { current := some (.string "a") } {}) [] = some _ := rfl
  have hno : ∀ l ∈ savingRun ++ [] ++ [], ∀ i, l ≠ .call i .invalidate := by
    intro l hl i
    simp only [savingRun, List.append_nil, List.mem_cons] at hl
    rcases hl with rfl | hl
    · simp
    · rw [List.eq_of_mem_replicate hl]
      simp
  have hidle : ∀ a, (blankStart.activity a).isInvalidating = false := fun a => by cases a <;> rfl
  exact ⟨w₁, w₂, h₁, hreturned, h₂, (loads_never_go_back (i := 0) h₀ hidle h₁
    (.inl ⟨Nat.le_refl 0, .inl hreturned⟩) h₂ (run_nil ..) hno).2 .peek {} hpeek⟩

end SnapStore.Cache
