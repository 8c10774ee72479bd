import SnapStore.Cache.Locks
import SnapStore.Proofs.Cache.Lanes
import SnapStore.Proofs.Cache.Alone
import Mathlib.Data.Set.Basic
import Mathlib.Logic.Relation

namespace SnapStore.Cache

/-!
# No deadlock

A thread that waits for a lock can have the lanes in hand, and no other lock.  A thread that has the write
lane in hand does not wait for the load lane, and one that waits for the writer to stop has nothing in hand.
So whoever waits for somebody who waits is behind in the order: the end of the writer, the load lane, the
write lane, the other locks.

* `Locked.Awaits` says who waits for whom.
* `Locked.Happens` is what a step can do, `Locked.Orderly` is the invariant.
* `Locked.Awaits.level_lt` — waiting goes up in the order.
* `no_deadlock` — so it does not go round.
* `waiting_ends` — and somebody at its end can go on.
* `reachable_of_iff` — apart from waiting, the locks change nothing about what a cache can do.
-/

variable {σ M : Type} {c : Setup σ M} {g g' : Locked σ M} {m m' : Machine σ M}

/-! ### Who waits for whom -/

/-- The lock that a thread needs. -/
def Need.lock? : Need → Option Lock
  | .loadLane => some .loadLane
  | .writeLane => some .writeLane
  | .latch k _ => some (.latch k)
  | .nothing | .stop => none

namespace Locked

/-- What a thread needs that has no lock in hand for its step and does not sleep. -/
def need (g : Locked σ M) (a : Actor) : Need :=
  match g.grip a with
  | .nothing => g.machine.need a
  | _ => .nothing

/-- Whether a thread has a lock in hand. -/
def Holds (g : Locked σ M) (a : Actor) : Lock → Prop
  | .loadLane => g.machine.shared.loadLane = some a
  | .writeLane => g.machine.shared.writeLane = some a
  | .latch k => ∃ alone, (g.keepers k).Has a alone

/-- A thread needs a lock that somebody has in hand, or waits for the end of the writer, which has not
come. -/
inductive Awaits (g : Locked σ M) (a : Actor) : Actor → Prop
  | lock {b : Actor} {k : Lock} (needs : (g.need a).lock? = some k) (holds : g.Holds b k) : Awaits g a b
  | stop (needs : g.need a = .stop) (running : g.machine.writer.hasStopped = false) : Awaits g a .writer

/-- A caller that is outside, or a writer that has stopped. -/
def AtRest (g : Locked σ M) : Actor → Prop
  | .writer => g.grip .writer = .nothing ∧ g.machine.writer.hasStopped = true
  | .caller i => g.grip (.caller i) = .nothing ∧ ∃ last, g.machine.callers i = .outside last

/-- A thread has a next step, given what it learns from outside. -/
def CanGoOn (c : Setup σ M) (g : Locked σ M) (a : Actor) : Prop :=
  ∃ o, (Locked.step c (.turn a o) g).isSome = true

end Locked

/-! ### What a step can do -/

theorem Machine.step_of (m : Machine σ M) (me : Actor) (o : Outside) :
    Machine.step c (.of me o) m = m.advance c me o := by
  cases me <;> rfl

namespace Locked

/-- What a step can do to the machine, to what the threads have in hand, and to the locks. -/
inductive Happens (c : Setup σ M) (g g' : Locked σ M) : Prop
  | /-- A thread that needs a lock takes it. -/ take (me : Actor) (k : Latch) (alone : Bool) (ks : Keepers)
      (was : g.grip me = .nothing) (needs : g.machine.need me = .latch k alone)
      (takes : (g.keepers k).take? me alone = some ks)
      (eq : g' = g.regrip me (.taken k alone) k ks)
  | /-- A thread that has taken a lock takes its step. -/ act (me : Actor) (o : Outside) (k : Latch)
      (alone : Bool) (m : Machine σ M) (was : g.grip me = .taken k alone)
      (step : g.machine.advance c me o = some m)
      (eq : g' = (g.regrip me (.spent k alone) k (g.keepers k)).withMachine m)
  | /-- A thread releases the lock that it has in hand. -/ drop (me : Actor) (k : Latch) (alone : Bool)
      (grip : Grip) (was : g.grip me = .taken k alone ∨ g.grip me = .spent k alone)
      (now : grip = .asleep ∨ grip = .nothing)
      (eq : g' = g.regrip me grip k ((g.keepers k).release me alone))
  | /-- A thread wakes up. -/ wake (me : Actor) (was : g.grip me = .asleep)
      (eq : g' = { g with grip := fun a => if a = me then .nothing else g.grip a })
  | /-- Something happens that needs no lock but a lane. -/ pass (l : Machine.Label σ M) (m : Machine σ M)
      (step : Machine.step c l g.machine = some m) (eq : g' = g.withMachine m)

theorem happens_of_turn {me : Actor} {o : Outside} (h : g.turn c me o = some g') : Happens c g g' := by
  unfold turn at h
  split at h
  · rename_i hgrip
    split at h
    · rename_i k alone hneed
      obtain ⟨ks, hks, rfl⟩ := Option.map_eq_some_iff.mp h
      exact .take me k alone ks hgrip hneed hks rfl
    · obtain ⟨m, hm, rfl⟩ := Option.map_eq_some_iff.mp h
      exact .pass (.of me o) m ((Machine.step_of ..).trans hm) rfl
  · rename_i k alone hgrip
    split at h <;> cases h
    · rename_i m hm
      exact .act me o k alone m hgrip hm rfl
    · exact .drop me k alone .asleep (.inl hgrip) (.inl rfl) rfl
  · rename_i k alone hgrip
    cases h
    exact .drop me k alone .nothing (.inr hgrip) (.inr rfl) rfl
  · cases h

/-- Every step of a cache is one of these. -/
theorem happens_of_step {l : Label σ M} (h : Locked.step c l g = some g') : Happens c g g' := by
  cases l with
  | turn me o => exact happens_of_turn h
  | call i call =>
    simp only [Locked.step] at h
    split at h
    · obtain ⟨m, hm, rfl⟩ := Option.map_eq_some_iff.mp h
      exact .pass _ m hm rfl
    · cases h
  | wake me =>
    simp only [Locked.step] at h
    split at h <;> cases h
    exact .wake me ‹_› rfl
  | host holder | stranger slot =>
    simp only [Locked.step] at h
    obtain ⟨m, hm, rfl⟩ := Option.map_eq_some_iff.mp h
    exact .pass _ m hm rfl

/-- Seen from afar, a step is one of the machine, or nothing. -/
theorem machine_of_step {l : Label σ M} (h : Locked.step c l g = some g') :
    g'.machine = g.machine ∨ ∃ k, Machine.step c k g.machine = some g'.machine := by
  cases happens_of_step h with
  | take me k alone ks was needs takes eq | drop me k alone grip was now eq | wake me was eq =>
    subst eq
    exact .inl rfl
  | act me o k alone m was step eq =>
    subst eq
    exact .inr ⟨.of me o, (Machine.step_of ..).trans step⟩
  | pass l m step eq =>
    subst eq
    exact .inr ⟨l, step⟩

end Locked

/-! ### Who has a lock in hand -/

/-- The lock that a thread has in hand for a step, and whether it has it alone. -/
def Grip.access? : Grip → Option (Latch × Bool)
  | .taken k alone | .spent k alone => some (k, alone)
  | .nothing | .asleep => none

section Keepers

variable {ks ks' : Keepers} {me : Actor} {alone : Bool}

theorem Keepers.has_of_take (h : ks.take? me alone = some ks') (a : Actor) (b : Bool) :
    ks'.Has a b ↔ ks.Has a b ∨ a = me ∧ b = alone := by
  unfold take? at h
  cases alone <;> simp only [] at h <;> split at h <;> cases h <;> rename_i hfree
  · cases b <;> simp [Has, or_comm]
  · simp only [Bool.and_eq_true, Option.isNone_iff_eq_none, List.isEmpty_iff] at hfree
    cases b <;> simp [Has, hfree, eq_comm]

theorem Keepers.has_release (h : ks.Has me alone) (a : Actor) (b : Bool) :
    (ks.release me alone).Has a b ↔ ks.Has a b ∧ ¬ (a = me ∧ b = alone) := by
  cases alone with
  | false => cases b <;> simp [Has, release]
  | true =>
    have howner : ks.owner = some me := h
    cases b <;> simp [Has, release, howner, eq_comm]

/-- A lock that somebody has alone has no readers. -/
def Keepers.Exclusive (ks : Keepers) : Prop := ks.owner = none ∨ ks.readers = []

theorem Keepers.Exclusive.take (h : ks.take? me alone = some ks') : ks'.Exclusive := by
  unfold take? at h
  cases alone <;> simp only [] at h <;> split at h <;> cases h <;> rename_i hfree
  · exact .inl (Option.isNone_iff_eq_none.mp hfree)
  · simp only [Bool.and_eq_true, Option.isNone_iff_eq_none, List.isEmpty_iff] at hfree
    exact .inr hfree.2

theorem Keepers.Exclusive.release (h : ks.Exclusive) : (ks.release me alone).Exclusive := by
  cases alone with
  | true => exact .inl rfl
  | false => exact h.imp id fun hr => by simp [Keepers.release, hr]

/-- A lock that somebody cannot take is in somebody's hands. -/
theorem Keepers.exists_has (h : ks.take? me alone = none) : ∃ a b, ks.Has a b := by
  cases ho : ks.owner with
  | some a => exact ⟨a, true, ho⟩
  | none =>
    cases hr : ks.readers with
    | nil => cases alone <;> simp [take?, ho, hr] at h
    | cons a rest => exact ⟨a, false, by simp [Has, hr]⟩

end Keepers

namespace Locked

/-- Every lock is in the hands of the threads that say so, and one that is in the hands of one thread alone
is in nobody else's. -/
structure Orderly (g : Locked σ M) : Prop where
  lanes : g.machine.Lanes
  grips : ∀ k a alone, (g.keepers k).Has a alone ↔ (g.grip a).access? = some (k, alone)
  exclusive : ∀ k, (g.keepers k).Exclusive

theorem orderly_of (h : m.Lanes) : (of m).Orderly where
  lanes := h
  grips k a alone := by cases alone <;> simp [of, Keepers.Has, Grip.access?]
  exclusive _ := .inl rfl

/-- A thread that has a lock in hand, or takes it, changes nothing about the other locks and threads. -/
private theorem grips_regrip (h : g.Orderly) {me : Actor} {grip : Grip} {k : Latch} {ks : Keepers}
    (hbefore : ∀ k' alone, (g.grip me).access? = some (k', alone) → k' = k)
    (hafter : ∀ k' alone, grip.access? = some (k', alone) → k' = k)
    (hme : ∀ alone, ks.Has me alone ↔ grip.access? = some (k, alone))
    (hothers : ∀ a alone, a ≠ me → (ks.Has a alone ↔ (g.keepers k).Has a alone)) (k' : Latch) (a : Actor)
    (alone : Bool) :
    ((g.regrip me grip k ks).keepers k').Has a alone ↔
      ((g.regrip me grip k ks).grip a).access? = some (k', alone) := by
  by_cases hk : k' = k
  · subst hk
    by_cases ha : a = me
    · subst ha
      simpa [regrip] using hme alone
    · simpa [regrip, ha] using (hothers a alone ha).trans (h.grips k' a alone)
  · by_cases ha : a = me
    · subst ha
      have hnone : ¬ (g.keepers k').Has a alone := fun hh => hk (hbefore k' alone ((h.grips ..).mp hh))
      simpa [regrip, hk, hnone] using fun hg => hk (hafter k' alone hg)
    · simpa [regrip, hk, ha] using h.grips k' a alone

private theorem exclusive_regrip (h : g.Orderly) {me : Actor} {grip : Grip} {k : Latch} {ks : Keepers}
    (hks : ks.Exclusive) (k' : Latch) : ((g.regrip me grip k ks).keepers k').Exclusive := by
  by_cases hk : k' = k
  · simpa [regrip, hk] using hks
  · simpa [regrip, hk] using h.exclusive k'

/-- **One step.** Every lock stays in the hands of the threads that say so. -/
theorem Orderly.happens (h : g.Orderly) (happens : Happens c g g') : g'.Orderly := by
  cases happens with
  | take me k alone ks was needs takes eq =>
    subst eq
    have hhas := Keepers.has_of_take takes
    refine ⟨h.lanes, grips_regrip h ?_ ?_ ?_ ?_, exclusive_regrip h (Keepers.Exclusive.take takes)⟩
    · simp [was, Grip.access?]
    · simp [Grip.access?, eq_comm]
    · -- until now it had no lock in hand
      intro b
      have hnone : ¬ (g.keepers k).Has me b := by simp [h.grips, was, Grip.access?]
      simp [hhas, hnone, Grip.access?, eq_comm]
    · intro a b ha
      simp [hhas, ha]
  | act me o k alone m was step eq =>
    subst eq
    refine ⟨h.lanes.turn (turn_of_step ((Machine.step_of ..).trans step)),
      grips_regrip h ?_ ?_ ?_ (fun _ _ _ => Iff.rfl), fun k' => ?_⟩
    · simp [was, Grip.access?, eq_comm]
    · simp [Grip.access?, eq_comm]
    · simp [h.grips, was, Grip.access?]
    · rw [keepers_withMachine]
      exact exclusive_regrip h (h.exclusive k) k'
  | drop me k alone grip was now eq =>
    subst eq
    have haccess : (g.grip me).access? = some (k, alone) := by
      rcases was with was | was <;> rw [was] <;> rfl
    have hnothing : grip.access? = none := by rcases now with rfl | rfl <;> rfl
    have hhas := Keepers.has_release ((h.grips ..).mpr haccess)
    refine ⟨h.lanes, grips_regrip h ?_ ?_ ?_ ?_, exclusive_regrip h (h.exclusive k).release⟩
    · simp [haccess, eq_comm]
    · simp [hnothing]
    · intro b
      simp [hhas, h.grips, haccess, hnothing, eq_comm]
    · intro a b ha
      simp [hhas, ha]
  | wake me was eq =>
    subst eq
    refine ⟨h.lanes, fun k a alone => ?_, h.exclusive⟩
    by_cases ha : a = me
    · subst ha
      simp [h.grips, was, Grip.access?]
    · simpa [ha] using h.grips k a alone
  | pass l m step eq =>
    subst eq
    exact ⟨h.lanes.turn (turn_of_step step), h.grips, h.exclusive⟩

/-- **Every run.** In every state that can be reached, every lock is in the hands of the threads that say
so. -/
theorem orderly_of_reachable {slot : σ} {holder : Holder M} {reports : Reports}
    (h : Reachable (Locked.step c) (of (.start slot holder reports)) g) : g.Orderly :=
  h.induction (orderly_of (Machine.lanes_start slot holder reports)) fun _ _ _ hg hs =>
    hg.happens (happens_of_step hs)

end Locked

/-! ### The order of the locks -/

/-- The place of a lock in the order; the end of the writer comes before all locks. -/
def Lock.level : Lock → Nat
  | .loadLane => 2
  | .writeLane => 3
  | .latch _ => 4

/-- The place in the order of what a thread needs. -/
def Need.level : Need → Nat
  | .nothing => 0
  | .stop => 1
  | .loadLane => 2
  | .writeLane => 3
  | .latch .. => 4

theorem Need.level_le (n : Need) : n.level ≤ 4 := by cases n <;> simp [level]

theorem Need.level_of_lock {n : Need} {k : Lock} (h : n.lock? = some k) : n.level = k.level := by
  cases n <;> cases h <;> rfl

/-- A need that comes after a lock in the order, or none. -/
def Need.After (n : Need) (k : Lock) : Prop := n = .nothing ∨ k.level < n.level

section Place

theorem Load.after_of_holdsLoad {p : Load M} (h : p.holdsLoad = true) : p.need.After .loadLane := by
  cases p with
  | peek | enter | done => cases h
  | recheck | install | publish => exact .inr (by simp [need, Need.level, Lock.level])
  | _ => exact .inl rfl

theorem Load.after_of_holdsWrite {p : Load M} (h : p.holdsWrite = true) : p.need.After .writeLane := by
  cases p with
  | publish => exact .inr (by simp [need, Need.level, Lock.level])
  | _ => cases h

theorem Save.after_of_holdsWrite {p : Save M} (h : p.holdsWrite = true) : p.need.After .writeLane := by
  cases p with
  | enter | done => cases h
  | publish => exact .inr (by simp [need, Need.level, Lock.level])
  | _ => exact .inl rfl

theorem Invalidation.after_of_holdsLoad {p : Invalidation} (h : p.holdsLoad = true) :
    p.need.After .loadLane := by
  cases p with
  | cancel | enterLoad | done => cases h
  | enterWrite | forget => exact .inr (by simp [need, Need.level, Lock.level])
  | _ => exact .inl rfl

theorem Invalidation.after_of_holdsWrite {p : Invalidation} (h : p.holdsWrite = true) :
    p.need.After .writeLane := by
  cases p with
  | cancel | enterLoad | enterWrite | done => cases h
  | forget => exact .inr (by simp [need, Need.level, Lock.level])
  | _ => exact .inl rfl

/-- Whoever has the load lane in hand needs nothing that comes before it. -/
theorem Machine.after_of_holdsLoad {a : Actor} (h : (m.activity a).holdsLoad = true) :
    (m.need a).After .loadLane := by
  cases a with
  | writer => cases hw : m.writer <;> rw [activity, hw] at h <;> cases h
  | caller i =>
    cases hi : m.callers i <;> rw [activity, hi] at h <;> rw [need, hi]
    case loading p => exact Load.after_of_holdsLoad h
    case invalidating p => exact Invalidation.after_of_holdsLoad h
    all_goals cases h

/-- Whoever has the write lane in hand needs nothing that comes before it. -/
theorem Machine.after_of_holdsWrite {a : Actor} (h : (m.activity a).holdsWrite = true) :
    (m.need a).After .writeLane := by
  cases a with
  | writer =>
    cases hw : m.writer <;> rw [activity, hw] at h <;> rw [need, hw]
    case saving d p => exact Save.after_of_holdsWrite h
    all_goals cases h
  | caller i =>
    cases hi : m.callers i <;> rw [activity, hi] at h <;> rw [need, hi]
    case loading p => exact Load.after_of_holdsWrite h
    case saving p => exact Save.after_of_holdsWrite h
    case invalidating p => exact Invalidation.after_of_holdsWrite h
    all_goals cases h

end Place

namespace Locked

/-- **The order.** Whoever has a lock in hand needs nothing that comes before it. -/
theorem Orderly.after_of_holds (h : g.Orderly) {a : Actor} {k : Lock} (hk : g.Holds a k) :
    (g.need a).After k := by
  cases hgrip : g.grip a with
  | taken | spent | asleep => exact .inl (by rw [need, hgrip])
  | nothing =>
    have hneed : g.need a = g.machine.need a := by rw [need, hgrip]
    rw [hneed]
    cases k with
    | loadLane => exact Machine.after_of_holdsLoad ((h.lanes.load a).mp hk)
    | writeLane => exact Machine.after_of_holdsWrite ((h.lanes.write a).mp hk)
    | latch k =>
      -- whoever has such a lock in hand does not have empty hands
      obtain ⟨alone, hhas⟩ := hk
      have haccess := (h.grips ..).mp hhas
      rw [hgrip] at haccess
      cases haccess

theorem need_writer_ne_stop : g.need .writer ≠ .stop := by
  unfold need
  split
  · cases hw : g.machine.writer with
    | saving d p => cases p <;> simp [Machine.need, Writer.need, Save.need, hw]
    | _ => simp [Machine.need, Writer.need, hw]
  · simp

/-- **Waiting goes up.** Whoever is waited for needs nothing, or something that comes later in the order. -/
theorem Awaits.level_lt (h : g.Orderly) {a b : Actor} (hab : g.Awaits a b) :
    g.need b = .nothing ∨ (g.need a).level < (g.need b).level := by
  cases hab with
  | lock needs holds =>
    rw [Need.level_of_lock needs]
    exact h.after_of_holds holds
  | stop needs running =>
    rw [needs]
    cases hb : g.need .writer with
    | nothing => exact .inl rfl
    | stop => exact absurd hb need_writer_ne_stop
    | _ => exact .inr (by simp [Need.level])

theorem Awaits.need_ne {a b : Actor} (hab : g.Awaits a b) : g.need a ≠ .nothing := by
  intro hn
  cases hab with
  | lock needs holds =>
    rw [hn] at needs
    cases needs
  | stop needs running =>
    rw [hn] at needs
    cases needs

end Locked

/-! ### Whoever has no next step waits -/

/-- A lane that is needed is free, and the writer has stopped if that is waited for. -/
def Machine.Allows (m : Machine σ M) : Need → Prop
  | .loadLane => m.shared.loadLane = none
  | .writeLane => m.shared.writeLane = none
  | .stop => m.writer.hasStopped = true
  | .nothing => True
  | .latch .. => False

section GoesOn

variable {me : Actor} {o : Outside}

theorem Load.isSome_step {p : Load M} (hp : ∀ result, p ≠ .done result) (h : m.Allows p.need) :
    (p.step c me o m.shared).isSome = true := by
  cases p with
  | done result => exact absurd rfl (hp result)
  | enter | install =>
    have hfree := Option.isNone_iff_eq_none.mpr h
    simp only [Load.step, hfree, if_true, Option.isSome_some]
  | peek | recheck | publish => cases h
  | receive found =>
    simp only [Load.step]
    split
    · rfl
    · rfl
    · split <;> rfl
  | _ => rfl

theorem Save.isSome_step {p : Save M} (hp : ∀ result, p ≠ .done result) (h : m.Allows p.need) :
    (p.step c me o m.shared).isSome = true := by
  cases p with
  | done result => exact absurd rfl (hp result)
  | enter =>
    have hfree := Option.isNone_iff_eq_none.mpr h
    simp only [Save.step, hfree, if_true, Option.isSome_some]
  | publish => cases h
  | capture | seed | receive | encode | write =>
    simp only [Save.step]
    split <;> rfl
  | _ => rfl

theorem Invalidation.isSome_step {p : Invalidation} (hp : ∀ result, p ≠ .done result)
    (h : m.Allows p.need) : (p.step c me o m.shared).isSome = true := by
  cases p with
  | done result => exact absurd rfl (hp result)
  | enterLoad | enterWrite =>
    have hfree := Option.isNone_iff_eq_none.mpr h
    simp only [Invalidation.step, hfree, if_true, Option.isSome_some]
  | cancel | forget => cases h
  | remove =>
    simp only [Invalidation.step]
    split <;> rfl
  | _ => rfl

theorem Machine.isSome_stepCaller {i : ThreadId} (hrest : ∀ last, m.callers i ≠ .outside last)
    (h : m.Allows (m.need (.caller i))) : (m.stepCaller c i o).isSome = true := by
  cases hi : m.callers i <;> simp only [need, hi, Caller.need] at h <;> simp only [stepCaller, hi]
  case outside last => exact absurd hi (hrest last)
  case loading p =>
    cases p with
    | done => rfl
    | _ => simpa only [Option.isSome_map] using Load.isSome_step (by simp) h
  case saving p =>
    cases p with
    | done => rfl
    | _ => simpa only [Option.isSome_map] using Save.isSome_step (by simp) h
  case invalidating p =>
    cases p with
    | done => rfl
    | _ => simpa only [Option.isSome_map] using Invalidation.isSome_step (by simp) h
  case joining =>
    have hstopped : m.writer.hasStopped = true := h
    simp [hstopped]
  case marking | checking | closing | taking => cases h
  all_goals rfl

theorem Machine.isSome_stepWriter (hrest : m.writer.hasStopped = false)
    (h : m.Allows (m.need .writer)) : (m.stepWriter c o).isSome = true := by
  cases hw : m.writer <;> simp only [need, hw, Writer.need] at h <;> simp only [stepWriter, hw]
  case saving d p =>
    cases p with
    | done result => cases result <;> rfl
    | _ => simpa only [Option.isSome_map] using Save.isSome_step (by simp) h
  case stopped =>
    rw [hw] at hrest
    cases hrest
  case ready | finishing => cases h
  all_goals rfl

end GoesOn

namespace Locked

/-- A thread with empty hands takes the lock that it needs, or takes its step, if nothing is in its way. -/
theorem canGoOn_of_allows {a : Actor} (hgrip : g.grip a = .nothing) (hrest : ¬ g.AtRest a)
    (h : g.machine.Allows (g.machine.need a)) : g.CanGoOn c a := by
  have hturn : g.turn c a {} = (g.machine.advance c a {}).map g.withMachine := by
    unfold turn
    rw [hgrip]
    cases hneed : g.machine.need a with
    | latch k alone =>
      rw [hneed] at h
      cases h
    | _ => rfl
  refine ⟨{}, ?_⟩
  show (g.turn c a {}).isSome = true
  rw [hturn, Option.isSome_map]
  cases a with
  | writer => exact Machine.isSome_stepWriter (Bool.eq_false_iff.mpr fun hs => hrest ⟨hgrip, hs⟩) h
  | caller i => exact Machine.isSome_stepCaller (fun last hl => hrest ⟨hgrip, last, hl⟩) h

/-- **Whoever has no next step** is at rest, sleeps, or waits for somebody. -/
theorem rests_or_goes_on_or_awaits (c : Setup σ M) (g : Locked σ M) (a : Actor) :
    g.AtRest a ∨ g.grip a = .asleep ∨ g.CanGoOn c a ∨ ∃ b, g.Awaits a b := by
  by_cases hrest : g.AtRest a
  · exact .inl hrest
  cases hgrip : g.grip a with
  | asleep => exact .inr (.inl rfl)
  | taken k alone =>
    refine .inr (.inr (.inl ⟨{}, ?_⟩))
    simp only [Locked.step, turn, hgrip]
    split <;> rfl
  | spent k alone =>
    refine .inr (.inr (.inl ⟨{}, ?_⟩))
    simp only [Locked.step, turn, hgrip, Option.isSome_some]
  | nothing =>
    have hneed : g.need a = g.machine.need a := by rw [need, hgrip]
    cases hn : g.machine.need a with
    | nothing => exact .inr (.inr (.inl (canGoOn_of_allows hgrip hrest (by rw [hn]; trivial))))
    | loadLane =>
      cases hlane : g.machine.shared.loadLane with
      | none => exact .inr (.inr (.inl (canGoOn_of_allows hgrip hrest (by rw [hn]; exact hlane))))
      | some b => exact .inr (.inr (.inr ⟨b, .lock (k := .loadLane) (by rw [hneed, hn]; rfl) hlane⟩))
    | writeLane =>
      cases hlane : g.machine.shared.writeLane with
      | none => exact .inr (.inr (.inl (canGoOn_of_allows hgrip hrest (by rw [hn]; exact hlane))))
      | some b => exact .inr (.inr (.inr ⟨b, .lock (k := .writeLane) (by rw [hneed, hn]; rfl) hlane⟩))
    | latch k alone =>
      cases htake : (g.keepers k).take? a alone with
      | none =>
        obtain ⟨b, alone', hhas⟩ := Keepers.exists_has htake
        exact .inr (.inr (.inr ⟨b, .lock (k := .latch k) (by rw [hneed, hn]; rfl) ⟨alone', hhas⟩⟩))
      | some ks =>
        refine .inr (.inr (.inl ⟨{}, ?_⟩))
        simp only [Locked.step, turn, hgrip, hn, htake, Option.map_some, Option.isSome_some]
    | stop =>
      cases hs : g.machine.writer.hasStopped with
      | true => exact .inr (.inr (.inl (canGoOn_of_allows hgrip hrest (by rw [hn]; exact hs))))
      | false => exact .inr (.inr (.inr ⟨.writer, .stop (by rw [hneed, hn]) hs⟩))

/-- Whoever is at rest is doing nothing. -/
theorem activity_of_atRest {a : Actor} (hrest : g.AtRest a) : g.machine.activity a = .rest := by
  cases a with
  | writer =>
    obtain ⟨-, hstopped⟩ := hrest
    cases hw : g.machine.writer with
    | stopped => rw [Machine.activity, hw]; rfl
    | _ =>
      rw [hw] at hstopped
      cases hstopped
  | caller i =>
    obtain ⟨-, last, hlast⟩ := hrest
    rw [Machine.activity, hlast]
    rfl

/-- Nobody waits for somebody who is at rest. -/
theorem Orderly.not_atRest (h : g.Orderly) {a b : Actor} (hab : g.Awaits a b) : ¬ g.AtRest b := by
  intro hrest
  cases hab with
  | stop needs running =>
    rw [hrest.2] at running
    cases running
  | lock needs holds =>
    have hgrip : g.grip b = .nothing := by cases b <;> exact hrest.1
    have hactivity := activity_of_atRest hrest
    rename_i k
    cases k with
    | loadLane =>
      have hhas := (h.lanes.load b).mp holds
      simp only [hactivity] at hhas
      cases hhas
    | writeLane =>
      have hhas := (h.lanes.write b).mp holds
      simp only [hactivity] at hhas
      cases hhas
    | latch k =>
      obtain ⟨alone, hhas⟩ := holds
      have haccess := (h.grips ..).mp hhas
      rw [hgrip] at haccess
      cases haccess

end Locked

/-! ### The main results -/

open Locked

/-- **No deadlock.** In no state that can be reached do some threads wait for each other in such a way that
each of them waits for one of them, be it for a lock or for its end.  A thread that waits for the writer to
stop has no lock in hand.  A thread that has no next step is outside or has stopped, sleeps, or waits for
somebody in the sense of `Locked.Awaits`. -/
theorem no_deadlock {slot : σ} {holder : Holder M} {reports : Reports}
    (h : Reachable (Locked.step c) (.of (.start slot holder reports)) g) :
    (¬ ∃ S : Set Actor, S.Nonempty ∧ ∀ a ∈ S, ∃ b ∈ S, g.Awaits a b) ∧
    (∀ a k, g.need a = .stop → ¬ g.Holds a k) ∧
    ∀ a, g.AtRest a ∨ g.grip a = .asleep ∨ g.CanGoOn c a ∨ ∃ b, g.Awaits a b := by
  have hg := orderly_of_reachable h
  refine ⟨?_, fun a k hstop hholds => ?_, rests_or_goes_on_or_awaits c g⟩
  · rintro ⟨S, ⟨a₀, ha₀⟩, hS⟩
    -- from each thread of the set there is one that is further up
    have hup : ∀ n, ∃ a ∈ S, n ≤ (g.need a).level := by
      intro n
      induction n with
      | zero => exact ⟨a₀, ha₀, Nat.zero_le _⟩
      | succ n ih =>
        obtain ⟨a, ha, hn⟩ := ih
        obtain ⟨b, hb, hab⟩ := hS a ha
        obtain ⟨d, -, hbd⟩ := hS b hb
        exact ⟨b, hb, (hab.level_lt hg).elim (fun hnone => absurd hnone hbd.need_ne) hn.trans_lt⟩
    obtain ⟨a, -, ha⟩ := hup 5
    have := Need.level_le (g.need a)
    omega
  · rcases hg.after_of_holds hholds with hnone | hlt
    · rw [hstop] at hnone
      cases hnone
    · rw [hstop] at hlt
      cases k <;> simp [Need.level, Lock.level] at hlt

/-- The steps of a cache until an invalidation has both lanes in hand, a load waits for the one and the
writer for the other, and a caller waits for the writer to stop. -/
def crowdedRun : List (Locked.Label MemorySlot Value) :=
  -- a save is asked for, and the writer sets out for it
  .call 2 .schedule :: List.replicate 5 (.turn (.caller 2) {}) ++ List.replicate 3 (.turn .writer {}) ++
    -- the invalidation goes on until it could remove the blob
    .call 0 .invalidate :: List.replicate 5 (.turn (.caller 0) {}) ++
    .call 1 .load :: List.replicate 3 (.turn (.caller 1) {}) ++
    -- the handle of the writer is taken, and the signal closed
    .call 3 .shutdown :: List.replicate 6 (.turn (.caller 3) {})

/-- Several threads wait, but not for each other. -/
theorem no_deadlock_crowded :
    ∃ g, run (Locked.step textSetup) (.of blankStart) crowdedRun = some g ∧
      g.Awaits (.caller 3) .writer ∧ g.Awaits .writer (.caller 0) ∧ g.Awaits (.caller 1) (.caller 0) ∧
      (∀ k, ¬ g.Holds (.caller 3) k) ∧
      ¬ ∃ S : Set Actor, S.Nonempty ∧ ∀ a ∈ S, ∃ b ∈ S, g.Awaits a b := by
  obtain ⟨g, hrun, hstop, hwriter, hload, hholdsWrite, hholdsLoad, hrunning⟩ :
      ∃ g, run (Locked.step textSetup) (.of blankStart) crowdedRun = some g ∧
        g.need (.caller 3) = .stop ∧ g.need .writer = .writeLane ∧ g.need (.caller 1) = .loadLane ∧
        g.Holds (.caller 0) .writeLane ∧ g.Holds (.caller 0) .loadLane ∧
        g.machine.writer.hasStopped = false :=
    ⟨_, rfl, rfl, rfl, rfl, rfl, rfl, rfl⟩
  obtain ⟨hset, hempty, -⟩ := no_deadlock ⟨crowdedRun, hrun⟩
  exact ⟨g, hrun, .stop hstop hrunning, .lock (by rw [hwriter]; rfl) hholdsWrite,
    .lock (by rw [hload]; rfl) hholdsLoad, fun k => hempty _ k hstop, hset⟩

/-- **Whoever waits, waits for somebody who can go on**, or who sleeps, maybe not directly. -/
theorem waiting_ends {slot : σ} {holder : Holder M} {reports : Reports}
    (h : Reachable (Locked.step c) (.of (.start slot holder reports)) g) {a b : Actor}
    (hab : g.Awaits a b) :
    ∃ d, Relation.TransGen g.Awaits a d ∧ (g.CanGoOn c d ∨ g.grip d = .asleep) := by
  have hg := orderly_of_reachable h
  induction hn : 4 - (g.need a).level using Nat.strong_induction_on generalizing a b with
  | _ n ih =>
    rcases rests_or_goes_on_or_awaits c g b with hrest | hasleep | hgo | ⟨d, hbd⟩
    · exact absurd hrest (hg.not_atRest hab)
    · exact ⟨b, .single hab, .inr hasleep⟩
    · exact ⟨b, .single hab, .inl hgo⟩
    · have hlt := (hab.level_lt hg).resolve_left hbd.need_ne
      have hle := Need.level_le (g.need b)
      obtain ⟨e, hbe, he⟩ := ih _ (by omega) hbd rfl
      exact ⟨e, .head hab hbe, he⟩

/-! ### The same runs -/

namespace Locked

theorem exists_take (me : Actor) (alone : Bool) :
    ∃ ks, ({} : Keepers).take? me alone = some ks ∧ ks.release me alone = {} := by
  cases alone <;> exact ⟨_, rfl, by simp [Keepers.release]⟩

/-- A thread that has taken a lock that nobody had, and releases it in the end, has only changed the
machine. -/
theorem regrip_of (m m' : Machine σ M) (me : Actor) (grip grip' : Grip) (k : Latch) (ks ks' : Keepers) :
    ((((of m).regrip me grip k ks).regrip me grip' k ks').withMachine m').regrip me .nothing k {} =
      of m' := by
  simp only [regrip, withMachine, of, Locked.mk.injEq, true_and]
  constructor <;> funext x <;> split <;> simp_all

/-- A step of a thread can be taken when nobody has a lock in hand. -/
theorem reachable_of_advance (me : Actor) {o : Outside} (h : m.advance c me o = some m') :
    Reachable (Locked.step c) (of m) (of m') := by
  cases hneed : m.need me with
  | latch k alone =>
    obtain ⟨ks, htake, hrelease⟩ := exists_take me alone
    let taken := (of m).regrip me (.taken k alone) k ks
    let spent := (taken.regrip me (.spent k alone) k ks).withMachine m'
    have htaken : Locked.step c (.turn me o) (of m) = some taken := by
      simp only [Locked.step, turn, of, hneed, htake, Option.map_some]
      rfl
    have hspent : Locked.step c (.turn me o) taken = some spent := by
      have hadvance : (of m).machine.advance c me o = some m' := h
      simp only [Locked.step, turn, taken, grip_regrip, machine_regrip, keepers_regrip, hadvance]
      rfl
    have hreleased : Locked.step c (.turn me o) spent = some (of m') := by
      simp only [Locked.step, turn, spent, grip_withMachine, keepers_withMachine, grip_regrip,
        keepers_regrip, hrelease, taken, regrip_of]
    exact (((Reachable.refl _).snoc htaken).snoc hspent).snoc hreleased
  | _ =>
    refine (Reachable.refl _).snoc (l := .turn me o) ?_
    simp only [Locked.step, turn, of, hneed, h, Option.map_some]
    rfl

theorem reachable_of_step {l : Machine.Label σ M} (h : Machine.step c l m = some m') :
    Reachable (Locked.step c) (of m) (of m') := by
  cases l with
  | caller i o => exact reachable_of_advance (.caller i) h
  | writer o => exact reachable_of_advance .writer h
  | call i call =>
    refine (Reachable.refl _).snoc (l := .call i call) ?_
    have hcall : Machine.step c (.call i call) (of m).machine = some m' := h
    simp only [Locked.step, hcall, Option.map_some]
    rfl
  | host holder =>
    refine (Reachable.refl _).snoc (l := .host holder) ?_
    cases h
    rfl
  | stranger slot =>
    refine (Reachable.refl _).snoc (l := .stranger slot) ?_
    cases h
    rfl

end Locked

/-- **The locks only make threads wait.** A cache with its locks comes to the same states of its machine as
one whose steps are taken at once. -/
theorem reachable_of_iff :
    (∃ g, Reachable (Locked.step c) (.of m) g ∧ g.machine = m') ↔ Reachable (Machine.step c) m m' := by
  constructor
  · rintro ⟨g, h, rfl⟩
    refine h.induction (P := fun g => Reachable (Machine.step c) m g.machine) (.refl m) ?_
    intro t l u ht hstep
    rcases machine_of_step hstep with hsame | ⟨k, hk⟩
    · rwa [hsame]
    · exact ht.snoc hk
  · intro h
    refine ⟨.of m', ?_, rfl⟩
    exact h.induction (P := fun u => Reachable (Locked.step c) (.of m) (.of u)) (.refl _)
      fun t l u ht hstep => ht.trans (reachable_of_step hstep)

end SnapStore.Cache
