import SnapStore.Proofs.Cache.Alone
import SnapStore.Proofs.Cache.Verdicts
import SnapStore.Proofs.Cache.Journal
import Mathlib.Algebra.BigOperators.Group.Finset.Basic

namespace SnapStore.Cache

/-!
# What the counters count

Callers and the writer count what they do somewhere on their way, some of it before anybody can see it and
some of it after that.  While a thread is between the two, the counter is ahead of what can be seen, or
behind.

* `Sight` is what can be seen of a cache from outside; `Tally` is a cache with all that has been seen.
* `Item` is something that is counted: `Item.counter` is the counter, `Item.counts` says what should have
  been counted.
* `Item.ofLoad`, `Item.ofSave`, `Item.ofCaller` and `Item.ofWriter` — how far the counter is ahead because
  of a thread, by the place where it stands.
* `Machine.balance` — a step changes a counter, what is seen and these differences so that they stay in
  balance.
* `counters_account_for_everything` — when nobody is at work, the counters are what has been seen.
-/

variable {σ M : Type}

/-! ### What is seen and what is counted -/

/-- What can be seen of a cache from outside. -/
inductive Sight (M : Type)
  | called (call : Call)
  | told (a : Answer M)
  | reported (d : Diagnostic)
  | /-- The slot is changed. -/ done (d : Deed M)
  | /-- Something becomes of a request, or of a save of the writer. -/ noted (e : Event M)

namespace Sight

/-- A load gives a snapshot. -/
@[simp] def isSnapshot : Sight M → Bool
  | .told (.loaded (some _)) => true
  | _ => false

/-- A load has not been able to use the slot. -/
@[simp] def isLoadTrouble : Sight M → Bool
  | .reported d => d.trouble ≠ .writeFailed
  | _ => false

/-- A blob is put into the slot. -/
@[simp] def isWrite : Sight M → Bool
  | .done (.saved ..) => true
  | _ => false

/-- A caller is given the report of its save. -/
@[simp] def isReport : Sight M → Bool
  | .told (.saved (.ok (some _))) => true
  | _ => false

/-- A save of the writer comes to its report. -/
@[simp] def isBackgroundReport : Sight M → Bool
  | .noted (.ended (.ok (some _))) => true
  | _ => false

/-- A caller is given the error of its save. -/
@[simp] def isError : Sight M → Bool
  | .told (.saved (.error _)) => true
  | _ => false

/-- A save of the writer has failed. -/
@[simp] def isSaveTrouble : Sight M → Bool
  | .reported d => d.trouble = .writeFailed
  | _ => false

/-- A caller requests a save. -/
@[simp] def isRequest : Sight M → Bool
  | .called .schedule => true
  | _ => false

/-- A request joins one that is pending. -/
@[simp] def isMerge : Sight M → Bool
  | .noted (.requested .coalesced) => true
  | _ => false

end Sight

/-- What can be seen of a step. -/
def Machine.sights (c : Setup σ M) (m m' : Machine σ M) (l : Label σ M) : List (Sight M) :=
  (match l with
    | .call _ call => [.called call]
    | .caller i _ => ((m'.callers i).answer?.map .told).toList
    | _ => []) ++
  ((m.report? c l).map .reported).toList ++ ((m.deed? c l).map .done).toList ++
    ((m.event? c l).map .noted).toList

/-- A cache with all that has been seen of it. -/
structure Tally (σ M : Type) where
  machine : Machine σ M
  sights : List (Sight M) := []

namespace Tally

/-- One step of one thread, or a change from elsewhere. -/
def step (c : Setup σ M) (l : Machine.Label σ M) (w : Tally σ M) : Option (Tally σ M) :=
  (w.machine.step c l).map fun machine => ⟨machine, w.sights ++ w.machine.sights c machine l⟩

/-- A cache that has just been opened. -/
def start (slot : σ) (holder : Holder M) (reports : Reports) : Tally σ M where
  machine := .start slot holder reports

/-- Nothing but looking on is done: every run of the cache is a run with its tally. -/
theorem exists_run {c : Setup σ M} {w : Tally σ M} {ls : List (Machine.Label σ M)} {m : Machine σ M}
    (h : run (Machine.step c) w.machine ls = some m) :
    ∃ v, run (Tally.step c) w ls = some v ∧ v.machine = m := by
  refine exists_run_of_run (fun l w => ?_) h
  rw [Tally.step, Option.map_map]
  exact Option.map_id' ..

end Tally

/-- Something that is counted. -/
inductive Item
  | /-- Loads that give a snapshot. -/ present
  | /-- Loads that cannot use the slot. -/ troubles
  | /-- Blobs that are put into the slot. -/ written
  | /-- Saves that come to a report. -/ completed
  | /-- Saves that fail. -/ failed
  | /-- Requests for a save. -/ requested
  | /-- Requests that join a pending one. -/ coalesced

namespace Item

/-- The counter of something, or the sum of its counters. -/
def counter (s : Stats) : Item → Nat
  | .present => s.memoryHits + s.storageLoads
  | .troubles => s.loadFailures
  | .written | .completed => s.savesCompleted
  | .failed => s.saveFailures
  | .requested => s.savesRequested
  | .coalesced => s.savesCoalesced

/-- What should have been counted once it is seen. -/
def counts : Item → Sight M → Bool
  | .present, v => v.isSnapshot
  | .troubles, v => v.isLoadTrouble
  | .written, v => v.isWrite
  | .completed, v => v.isReport || v.isBackgroundReport
  | .failed, v => v.isError || v.isSaveTrouble
  | .requested, v => v.isRequest
  | .coalesced, v => v.isMerge

/-- How far the counter is ahead because of a load. -/
def ofLoad : Item → Load M → Int
  | .present, .install .. | .present, .publish .. | .present, .leave (some _) | .present, .done (some _) => 1
  | _, _ => 0

/-- How far the counter is ahead because of a save. -/
def ofSave : Item → Save M → Int
  | .written, .commit .. | .written, .publish .. | .written, .record _ => -1
  | .completed, .leave (.ok (some _)) | .completed, .done (.ok (some _)) => 1
  | _, _ => 0

/-- How far the counter is ahead because of a caller. -/
def ofCaller : Item → Caller M → Int
  | x, .loading p => x.ofLoad p
  | x, .saving p => x.ofSave p
  | .requested, .requesting | .coalesced, .merging => -1
  | _, _ => 0

/-- How far the counter is ahead because of the writer. -/
def ofWriter : Item → Writer M → Int
  | x, .saving _ p => x.ofSave p
  | _, _ => 0

end Item

/-! ### What a step changes -/

section Steps

variable {c : Setup σ M} {m m' : Machine σ M} {me : Actor} {o : Outside} {s s' : Shared σ M}
  {l : Machine.Label σ M}

/-- How often something is seen. -/
def Item.seen (x : Item) (sights : List (Sight M)) : Nat := sights.countP x.counts

@[simp] theorem Item.seen_nil (x : Item) : x.seen ([] : List (Sight M)) = 0 := rfl

theorem Item.seen_append (x : Item) (a b : List (Sight M)) : x.seen (a ++ b) = x.seen a + x.seen b :=
  List.countP_append

/-- A load counts a snapshot when it has it, and a failure when it reports it. -/
theorem Load.balance {p p' : Load M} (h : p.step c me o s = some (p', s')) (x : Item) :
    (x.counter s'.stats : Int) + x.ofLoad p = x.counter s.stats +
      x.seen (((Caller.loading p).report? c).map (Sight.reported (M := M))).toList + x.ofLoad p' := by
  cases p with
  | peek | recheck =>
    simp only [Load.step] at h
    split at h <;> cases h <;> cases x <;>
      simp [Item.counter, Item.ofLoad, Item.seen, Caller.report?, Stats.hit, add_right_comm]
  | enter | install =>
    simp only [Load.step] at h
    split at h <;> cases h
    cases x <;> simp [Item.counter, Item.ofLoad, Item.seen, Caller.report?]
  | consult =>
    simp only [Load.step] at h
    split at h <;> cases h <;> cases x <;> simp [Item.counter, Item.ofLoad, Item.seen, Caller.report?]
  | fetch =>
    cases h
    cases x <;> simp [Item.counter, Item.ofLoad, Item.seen, Caller.report?]
  | receive found =>
    simp only [Load.step] at h
    split at h
    · cases h
      cases x <;> simp [Item.counter, Item.ofLoad, Item.seen, Caller.report?]
    · cases h
      cases x <;> simp [Item.counter, Item.ofLoad, Item.seen, Caller.report?]
    · split at h <;> cases h <;> cases x <;>
        simp [Item.counter, Item.ofLoad, Item.seen, Caller.report?, Stats.loaded, add_assoc]
  | fail e =>
    cases h
    split <;> cases x <;> simp [Item.counter, Item.ofLoad, Item.seen, Caller.report?]
  | complain e =>
    cases h
    have htrouble : (Diagnostic.ofLoadError c.slot.location e).trouble ≠ .writeFailed := by
      cases e <;> exact fun h => by cases h
    cases x <;>
      simp [Item.counter, Item.ofLoad, Item.seen, Item.counts, Caller.report?, Stats.loadFailed, htrouble]
  | publish header model =>
    cases h
    cases x <;> simp [Item.counter, Item.ofLoad, Item.seen, Caller.report?]
  | leave result =>
    cases h
    cases x <;> cases result <;> simp [Item.counter, Item.ofLoad, Item.seen, Caller.report?]
  | done result => cases h

/-- A save counts itself after it has put its blob into the slot, and before it comes to its report. -/
theorem Save.balance {p p' : Save M} (h : p.step c me o s = some (p', s')) (x : Item) :
    (x.counter s'.stats : Int) + x.ofSave p = x.counter s.stats +
      x.seen ((p.deed? c o s.slot).map Sight.done).toList + x.ofSave p' := by
  cases p with
  | enter | capture | seed | receive | encode =>
    simp only [Save.step] at h
    split at h <;> cases h <;> cases x <;> simp [Item.counter, Item.ofSave, Item.seen, Save.deed?]
  | write model header blob =>
    simp only [Save.step] at h
    split at h <;> rename_i hwrite <;> cases h <;> cases x <;>
      simp [Item.counter, Item.ofSave, Item.seen, Item.counts, Save.deed?, hwrite]
  | commit | publish =>
    cases h
    cases x <;> simp [Item.counter, Item.ofSave, Item.seen, Save.deed?]
  | record r =>
    cases h
    cases x <;> simp [Item.counter, Item.ofSave, Item.seen, Save.deed?, Stats.saved]
  | leave result =>
    cases h
    cases x <;> rcases result with _ | _ | _ <;> simp [Item.counter, Item.ofSave, Item.seen, Save.deed?]
  | done result => cases h

/-- Nothing that an invalidation does is counted. -/
theorem Invalidation.balance {p p' : Invalidation} (h : p.step c me o s = some (p', s')) (x : Item) :
    x.counter s'.stats = x.counter s.stats ∧
      x.seen ((p.deed? c o s.slot).map (Sight.done (M := M))).toList = 0 := by
  cases p with
  | cancel | forget | absolve | leave =>
    cases h
    cases x <;> exact ⟨rfl, rfl⟩
  | enterLoad | enterWrite =>
    simp only [Invalidation.step] at h
    split at h <;> cases h
    cases x <;> exact ⟨rfl, rfl⟩
  | remove =>
    simp only [Invalidation.step] at h
    split at h <;> rename_i hremove <;> cases h <;> cases x <;>
      simp [Item.counter, Item.seen, Item.counts, deed?, hremove]
  | done result => cases h

/-- What can be seen of a caller that goes on from one place to another one. -/
def Caller.sights (c : Setup σ M) (o : Outside) (s : Shared σ M) (q q' : Caller M) : List (Sight M) :=
  (q'.answer?.map .told).toList ++ ((q.report? c).map .reported).toList ++
    ((q.activity.deed? c o s.slot).map .done).toList ++ ((q.event? s).map .noted).toList

/-- The balance of a caller that goes on from one place to another one. -/
def Caller.Balance (c : Setup σ M) (o : Outside) (s s' : Shared σ M) (q q' : Caller M) (x : Item) : Prop :=
  (x.counter s'.stats : Int) + x.ofCaller q = x.counter s.stats + x.seen (q.sights c o s q') + x.ofCaller q'

/-- A caller that does nothing that is counted, and is told nothing that is. -/
theorem Caller.balance_of_quiet {q q' : Caller M} {x : Item}
    (hcounter : x.counter s'.stats = x.counter s.stats)
    (was : x.ofCaller q = 0) (now : x.ofCaller q' = 0) (hseen : x.seen (q.sights c o s q') = 0) :
    q.Balance c o s s' q' x := by
  rw [Balance, hcounter, was, now, hseen]
  simp

theorem Caller.balance_of_loading {p p' : Load M} (h : p.step c me o s = some (p', s')) (x : Item) :
    (Caller.loading p).Balance c o s s' (.loading p') x := by
  have hbalance := Load.balance h x
  simpa [Balance, Item.ofCaller, sights, activity, Activity.deed?, event?, answer?] using hbalance

theorem Caller.balance_of_saving {p p' : Save M} (h : p.step c me o s = some (p', s')) (x : Item) :
    (Caller.saving p).Balance c o s s' (.saving p') x := by
  have hbalance := Save.balance h x
  simpa [Balance, Item.ofCaller, sights, activity, Activity.deed?, event?, answer?, report?] using hbalance

theorem Caller.balance_of_invalidating {p p' : Invalidation} (h : p.step c me o s = some (p', s'))
    (x : Item) :
    (Caller.invalidating p).Balance c o s s' (.invalidating p') x := by
  obtain ⟨hcounter, hseen⟩ := Invalidation.balance h x
  refine balance_of_quiet hcounter (by cases x <;> rfl) (by cases x <;> rfl) ?_
  have hevent : x.seen (((Caller.invalidating p).event? s).map (Sight.noted (M := M))).toList = 0 := by
    cases p <;> cases x <;> rfl
  rw [sights, Item.seen_append, hevent, Nat.add_zero]
  exact hseen

/-- A caller is told what its load has come to. -/
theorem Caller.balance_of_loaded (s : Shared σ M) (result : Option M) (x : Item) :
    (Caller.loading (.done result)).Balance c o s s (.done (.loaded result)) x := by
  cases x <;> cases result <;>
    simp [Balance, sights, Item.ofCaller, Item.ofLoad, Item.seen, Item.counts, activity,
      Activity.deed?, event?, report?, done, answer?]

/-- A caller is told what its save has come to, and counts a failure. -/
theorem Caller.balance_of_saved (s : Shared σ M) (result : Except CacheError (Option SaveReport))
    (x : Item) :
    (Caller.saving (.done result)).Balance c o s
      (match result with | .ok _ => s | .error _ => { s with stats := s.stats.saveFailed })
      (.done (.saved result))
      x := by
  cases x <;> rcases result with _ | _ | _ <;>
    simp [Balance, sights, Item.ofCaller, Item.ofSave, Item.seen, Item.counts, Item.counter, activity,
      Activity.deed?, Save.deed?, event?, report?, done, answer?, Stats.saveFailed]

/-- **A step of a caller** keeps the balance. -/
theorem Caller.balance_of_stepCaller {i : ThreadId} (h : m.stepCaller c i o = some m') (x : Item) :
    (m.callers i).Balance c o m.shared m'.shared (m'.callers i) x := by
  have hmove {q q' : Caller M} {s : Shared σ M} (hbalance : q.Balance c o m.shared s q' x)
      (hm : m.move i q' s = m') : q.Balance c o m.shared m'.shared (m'.callers i) x := by
    rw [← hm, Machine.callers_move_self]
    exact hbalance
  cases hi : m.callers i <;> simp only [Machine.stepCaller, hi] at h
  case outside last => cases h
  case loading p =>
    cases p with
    | done result => exact hmove (balance_of_loaded m.shared result x) (Option.some.inj h)
    | _ =>
      obtain ⟨⟨p', s⟩, hp, hm⟩ := Option.map_eq_some_iff.mp h
      exact hmove (balance_of_loading hp x) hm
  case saving p =>
    cases p with
    | done result => exact hmove (balance_of_saved m.shared result x) (Option.some.inj h)
    | _ =>
      obtain ⟨⟨p', s⟩, hp, hm⟩ := Option.map_eq_some_iff.mp h
      exact hmove (balance_of_saving hp x) hm
  case invalidating p =>
    cases p with
    | done result =>
      refine hmove (balance_of_quiet rfl ?_ ?_ ?_) (Option.some.inj h) <;> cases x <;> rfl
    | _ =>
      obtain ⟨⟨p', s⟩, hp, hm⟩ := Option.map_eq_some_iff.mp h
      exact hmove (balance_of_invalidating hp x) hm
  case marking reading =>
    refine hmove ?_ (Option.some.inj h)
    cases houtcome : (m.shared.signal.request reading).1 <;> cases x <;>
      simp [Balance, sights, Item.ofCaller, Item.seen, Item.counts, Item.counter, activity,
        Activity.deed?, event?, report?, done, answer?, houtcome]
  case requesting =>
    refine hmove ?_ (Option.some.inj h)
    cases x <;>
      simp [Balance, sights, Item.ofCaller, Item.seen, Item.counter, activity, Activity.deed?,
        event?, report?, answer?, Stats.requested]
  case merging =>
    refine hmove ?_ (Option.some.inj h)
    cases x <;>
      simp [Balance, sights, Item.ofCaller, Item.seen, Item.counts, Item.counter, activity,
        Activity.deed?, event?, report?, done, answer?, Stats.coalesced]
  case checking deadline =>
    split at h
    · refine hmove (balance_of_quiet rfl ?_ ?_ ?_) (Option.some.inj h) <;> cases x <;> rfl
    · split at h
      · refine hmove (balance_of_quiet rfl ?_ ?_ ?_) (Option.some.inj h) <;> cases x <;> rfl
      · cases h
  case joining =>
    split at h
    · refine hmove (balance_of_quiet rfl ?_ ?_ ?_) (Option.some.inj h) <;> cases x <;> rfl
    · cases h
  case taking =>
    refine hmove (balance_of_quiet ?_ ?_ ?_ ?_) (Option.some.inj h) <;> cases x <;>
      cases m.shared.hasHandle <;> rfl
  case timing | awaiting | closing | counting =>
    refine hmove (balance_of_quiet ?_ ?_ ?_ ?_) (Option.some.inj h) <;> cases x <;> rfl

/-- What is noted of a save of the writer on its way is not counted. -/
theorem Item.seen_event? (x : Item) (p : Save M) : x.seen ((p.event? c o s).map Sight.noted).toList = 0 := by
  cases p with
  | write model header blob =>
    simp only [Save.event?]
    split <;> cases x <;> rfl
  | _ => cases x <;> rfl

/-- What can be seen of the writer. -/
theorem Machine.seen_of_writer (m m' : Machine σ M) (o : Outside) (x : Item) :
    x.seen (m.sights c m' (.writer o)) =
      x.seen ((m.writer.report? c).map (Sight.reported (M := M))).toList +
        x.seen ((m.writer.activity.deed? c o m.shared.slot).map .done).toList +
          x.seen ((m.writer.event? c o m.shared).map .noted).toList := by
  simp only [sights, Item.seen_append, Item.seen_nil, Nat.zero_add]
  rfl

/-- **A step of the writer** keeps the balance. -/
theorem Writer.balance_of_stepWriter (h : m.stepWriter c o = some m') (x : Item) :
    (x.counter m'.shared.stats : Int) + x.ofWriter m.writer =
      x.counter m.shared.stats + x.seen (m.sights c m' (.writer o)) + x.ofWriter m'.writer := by
  rw [Machine.seen_of_writer]
  cases hw : m.writer <;> simp only [Machine.stepWriter, hw] at h
  case ready =>
    obtain ⟨⟨d, signal⟩, hd, rfl⟩ := Option.map_eq_some_iff.mp h
    have hnow : x.ofWriter (decided c.flushOnShutdown d : Writer M) = 0 := by
      cases d with
      | flush => cases x <;> rfl
      | shutdown pending =>
        simp only [decided]
        split <;> cases x <;> rfl
    have hevent : x.seen (((Writer.ready : Writer M).event? c o m.shared).map .noted).toList = 0 := by
      simp only [event?, hd, Option.map_some]
      cases x <;> rfl
    rw [hevent, hnow]
    cases x <;> simp [Item.ofWriter, report?, activity, Activity.deed?]
  case saving d p =>
    cases p with
    | done result =>
      rcases result with _ | _ | _ <;> cases h <;> cases x <;>
        simp [Item.ofWriter, Item.ofSave, Item.seen, Item.counts, activity, Activity.deed?,
          Save.deed?, event?, report?]
    | _ =>
      obtain ⟨⟨p', s⟩, hp, rfl⟩ := Option.map_eq_some_iff.mp h
      have hbalance := Save.balance hp x
      simp only [Item.ofWriter, report?, activity, Activity.deed?, event?, Item.seen_event?, Option.map_none,
        Option.toList_none, Item.seen_nil, Nat.zero_add, Nat.add_zero]
      exact hbalance
  case complaining d e =>
    cases h
    cases x <;>
      simp [Item.ofWriter, Item.seen, Item.counts, Item.counter, activity, Activity.deed?, event?, report?,
        Stats.saveFailed, Diagnostic.ofSaveError]
  case finishing d =>
    cases h
    cases d <;> cases x <;>
      simp [Item.ofWriter, Item.counter, activity, Activity.deed?, event?, report?, after]
  case stopped => cases h

/-! ### All threads together -/

/-- Whether a step is one of certain callers, or of nobody who calls. -/
def Machine.Label.IsWithin (threads : Finset ThreadId) : Label σ M → Prop
  | .call i _ | .caller i _ => i ∈ threads
  | _ => True

/-- Finitely many callers take part in a run. -/
theorem Machine.Label.exists_isWithin (ls : List (Label σ M)) :
    ∃ threads : Finset ThreadId, ∀ l ∈ ls, l.IsWithin threads := by
  induction ls with
  | nil => exact ⟨∅, fun _ h => by cases h⟩
  | cons l ls ih =>
    obtain ⟨threads, hthreads⟩ := ih
    have hmono (i : ThreadId) (k : Label σ M) (hk : k ∈ ls) : k.IsWithin (insert i threads) := by
      have hwithin := hthreads k hk
      cases k with
      | call | caller => exact Finset.mem_insert_of_mem hwithin
      | writer | host | stranger => trivial
    cases l with
    | call i _ | caller i _ =>
      refine ⟨insert i threads, fun k hk => ?_⟩
      rcases List.mem_cons.mp hk with rfl | hk
      · exact Finset.mem_insert_self ..
      · exact hmono i k hk
    | writer | host | stranger =>
      refine ⟨threads, fun k hk => ?_⟩
      rcases List.mem_cons.mp hk with rfl | hk
      · trivial
      · exact hthreads k hk

/-- How far the counter is ahead. -/
def Item.ahead (x : Item) (threads : Finset ThreadId) (m : Machine σ M) : Int :=
  x.ofWriter m.writer + ∑ i ∈ threads, x.ofCaller (m.callers i)

/-- A caller that goes on changes its own part of a sum. -/
theorem sum_goTo {α : Type} (f : α → Int) (g : ThreadId → α) {threads : Finset ThreadId} {i : ThreadId}
    (hi : i ∈ threads) (a : α) :
    ∑ j ∈ threads, f (goTo g i a j) + f (g i) = ∑ j ∈ threads, f (g j) + f a := by
  have hothers : ∑ j ∈ threads.erase i, f (goTo g i a j) = ∑ j ∈ threads.erase i, f (g j) :=
    Finset.sum_congr rfl fun j hj => by rw [goTo_of_ne g a (Finset.ne_of_mem_erase hj)]
  rw [← Finset.add_sum_erase threads (fun j => f (goTo g i a j)) hi,
    ← Finset.add_sum_erase threads (fun j => f (g j)) hi, hothers, goTo_self]
  omega

/-- **Every step** changes a counter, what is seen and how far the counter is ahead so that they stay in
balance. -/
theorem Machine.balance (h : m.step c l = some m') {threads : Finset ThreadId} (hl : l.IsWithin threads)
    (x : Item) :
    (x.counter m'.shared.stats : Int) + x.ahead threads m =
      x.counter m.shared.stats + x.seen (m.sights c m' l) + x.ahead threads m' := by
  cases l with
  | call i call =>
    simp only [Machine.step] at h
    split at h <;> rename_i hi <;> cases h
    have hsum := sum_goTo x.ofCaller m.callers hl (.start call)
    have hcall : x.seen (m.sights c (m.move i (.start call) m.shared) (.call i call)) +
        x.ofCaller (Caller.start call : Caller M) = x.ofCaller (m.callers i) := by
      rw [hi]
      cases call <;> cases x <;> rfl
    simp only [Item.ahead, move] at hsum hcall ⊢
    omega
  | caller i o =>
    have hbalance := Caller.balance_of_stepCaller h x
    obtain ⟨q, s, rfl, -⟩ := exists_move_of_stepCaller h
    have hsum := sum_goTo x.ofCaller m.callers hl q
    have hsights : m.sights c (m.move i q s) (.caller i o) = (m.callers i).sights c o m.shared q := by
      simp only [sights, callers_move_self]
      rfl
    rw [Caller.Balance, callers_move_self] at hbalance
    rw [hsights]
    simp only [Item.ahead, move] at hsum hbalance ⊢
    omega
  | writer o =>
    have hbalance := Writer.balance_of_stepWriter h x
    have hsame := callers_of_stepWriter h
    simp only [Item.ahead, hsame]
    omega
  | host holder | stranger slot =>
    cases h
    simp [sights, Machine.report?, Machine.deed?, Machine.event?, Item.ahead]

/-! ### The size of the last blob -/

/-- A blob that is seen to be put into the slot. -/
def Sight.written? : Sight M → Option Bytes
  | .done (.saved _ _ blob) => some blob
  | _ => none

/-- The size of the last blob that has been put into the slot, or zero. -/
def lastWritten (sights : List (Sight M)) : Nat :=
  ((sights.filterMap Sight.written?).getLast?.map List.length).getD 0

/-- The report of a save that has put its blob into the slot and has not counted itself yet. -/
def Save.unrecorded? : Save M → Option SaveReport
  | .commit _ r | .publish _ r | .record r => some r
  | _ => none

/-- The report of a thread that has put a blob into the slot and has not counted it yet. -/
def Activity.unrecorded? : Activity M → Option SaveReport
  | .save p => p.unrecorded?
  | _ => none

theorem Activity.holdsWrite_of_unrecorded? {a : Activity M} {r : SaveReport} (h : a.unrecorded? = some r) :
    a.holdsWrite = true := by
  cases a with
  | save p => cases p <;> first | rfl | cases h
  | _ => cases h

theorem Activity.unrecorded?_of_isAtEdge {a : Activity M} (h : a.isAtEdge = true) :
    a.unrecorded? = none := by
  cases a with
  | save p => cases p <;> first | rfl | cases h
  | _ => rfl

/-- What is found among the diagnostics and the deeds of a step, if that is all that is looked for. -/
theorem Machine.filterMap_sights {γ : Type} {g : Sight M → Option γ}
    (hcalled : ∀ call, g (.called call) = none)
    (htold : ∀ a, g (.told a) = none) (hnoted : ∀ e, g (.noted e) = none) (m m' : Machine σ M)
    (l : Label σ M) :
    (m.sights c m' l).filterMap g = ((m.report? c l).map .reported).toList.filterMap g ++
      ((m.deed? c l).map .done).toList.filterMap g := by
  have hnone {α : Type} (a : Option α) {f : α → Sight M} (hf : ∀ a, g (f a) = none) :
      (a.map f).toList.filterMap g = [] := by
    cases a with
    | none => rfl
    | some a => simp [hf]
  simp only [sights, List.filterMap_append, hnone _ hnoted, List.append_nil]
  cases l with
  | call i call => simp [hcalled]
  | caller i o => simp only [hnone _ htold, List.nil_append]
  | writer | host | stranger => rfl

/-- What is seen of a step puts no blob into the slot but the one of its deed. -/
theorem Machine.lastWritten_append (m m' : Machine σ M) (l : Label σ M) (sights : List (Sight M)) :
    lastWritten (sights ++ m.sights c m' l) =
      match m.deed? c l with
      | some (.saved _ _ blob) => blob.length
      | _ => lastWritten sights := by
  have hreport : ((m.report? c l).map (Sight.reported (M := M))).toList.filterMap Sight.written? = [] := by
    cases m.report? c l <;> rfl
  rw [lastWritten, List.filterMap_append,
    filterMap_sights (fun _ => rfl) (fun _ => rfl) (fun _ => rfl), hreport, List.nil_append]
  cases m.deed? c l with
  | none => simp [lastWritten]
  | some d =>
    cases d with
    | saved model header blob => simp [Sight.written?]
    | removed => simp [Sight.written?, lastWritten]

/-- A load leaves the size of the last save alone. -/
theorem Load.lastSaveBytes_eq {p p' : Load M} (h : p.step c me o s = some (p', s')) :
    s'.stats.lastSaveBytes = s.stats.lastSaveBytes := by
  cases p with
  | peek | enter | recheck | install =>
    simp only [Load.step] at h
    split at h <;> cases h <;> rfl
  | receive found =>
    simp only [Load.step] at h
    split at h
    · cases h
      rfl
    · cases h
      rfl
    · split at h <;> cases h <;> rfl
  | fail e =>
    cases h
    split <;> rfl
  | consult | fetch | complain | publish | leave =>
    cases h
    rfl
  | done result => cases h

/-- An invalidation leaves the size of the last save alone, and puts no blob into the slot. -/
theorem Invalidation.lastSaveBytes_eq {p p' : Invalidation} (h : p.step c me o s = some (p', s')) :
    s'.stats.lastSaveBytes = s.stats.lastSaveBytes ∧
      ∀ model header blob, p.deed? c o s.slot ≠ some (Deed.saved (M := M) model header blob) := by
  cases p with
  | enterLoad | enterWrite =>
    simp only [Invalidation.step] at h
    split at h <;> cases h
    exact ⟨rfl, fun _ _ _ h => by cases h⟩
  | remove =>
    simp only [Invalidation.step] at h
    split at h <;> rename_i hremove <;> cases h <;> simp [deed?, hremove]
  | cancel | forget | absolve | leave =>
    cases h
    exact ⟨rfl, fun _ _ _ h => by cases h⟩
  | done result => cases h

/-- What a step of a save means for the sizes. -/
inductive Save.Sizes (c : Setup σ M) (o : Outside) (s s' : Shared σ M) (p p' : Save M) : Prop
  | writes (model : M) (header : Snapshot.Header) (blob : Bytes)
      (deed : p.deed? c o s.slot = some (.saved model header blob))
      (now : p'.unrecorded? = some ⟨header, blob.length⟩) (holds : p.holdsWrite = true)
      (bytes : s'.stats.lastSaveBytes = s.stats.lastSaveBytes)
  | counts (r : SaveReport) (deed : p.deed? c o s.slot = none) (was : p.unrecorded? = some r)
      (now : p'.unrecorded? = none) (bytes : s'.stats.lastSaveBytes = r.bytes)
  | keeps (deed : p.deed? c o s.slot = none) (same : p'.unrecorded? = p.unrecorded?)
      (bytes : s'.stats.lastSaveBytes = s.stats.lastSaveBytes)

theorem Save.sizes_of_step {p p' : Save M} (h : p.step c me o s = some (p', s')) : p.Sizes c o s s' p' := by
  cases p with
  | enter | capture | seed | receive | encode =>
    simp only [Save.step] at h
    split at h <;> cases h <;> exact .keeps rfl rfl rfl
  | write model header blob =>
    simp only [Save.step] at h
    split at h <;> rename_i hwrite <;> cases h
    · exact .writes model header blob (by simp only [deed?, hwrite]) rfl rfl rfl
    · exact .keeps (by simp only [deed?, hwrite]) rfl rfl
  | commit | publish | leave =>
    cases h
    exact .keeps rfl rfl rfl
  | record r =>
    cases h
    exact .counts r rfl rfl rfl rfl
  | done result => cases h

theorem Save.lastSaveBytes_eq {p p' : Save M} (h : p.step c me o s = some (p', s'))
    (hp : p.unrecorded? = none) :
    s'.stats.lastSaveBytes = s.stats.lastSaveBytes := by
  cases Save.sizes_of_step h with
  | writes model header blob deed now holds bytes => exact bytes
  | counts r deed was now bytes =>
    rw [hp] at was
    cases was
  | keeps deed same bytes => exact bytes

/-- A step of a thread that has nothing to count yet leaves the size of the last save alone. -/
theorem Machine.lastSaveBytes_of_stepCaller {i : ThreadId} (h : m.stepCaller c i o = some m')
    (was : (m.callers i).activity.unrecorded? = none) :
    m'.shared.stats.lastSaveBytes = m.shared.stats.lastSaveBytes := by
  cases hi : m.callers i <;> simp only [Machine.stepCaller, hi] at h <;> rw [hi] at was
  case outside last => cases h
  case loading p =>
    cases p with
    | done result =>
      cases h
      rfl
    | _ =>
      obtain ⟨⟨p', s⟩, hp, rfl⟩ := Option.map_eq_some_iff.mp h
      exact Load.lastSaveBytes_eq hp
  case saving p =>
    cases p with
    | done result => cases result <;> cases h <;> rfl
    | _ =>
      obtain ⟨⟨p', s⟩, hp, rfl⟩ := Option.map_eq_some_iff.mp h
      exact Save.lastSaveBytes_eq hp was
  case invalidating p =>
    cases p with
    | done result =>
      cases h
      rfl
    | _ =>
      obtain ⟨⟨p', s⟩, hp, rfl⟩ := Option.map_eq_some_iff.mp h
      exact (Invalidation.lastSaveBytes_eq hp).1
  case checking deadline =>
    split at h
    · cases h
      rfl
    · split at h <;> cases h
      rfl
  case joining =>
    split at h <;> cases h
    rfl
  all_goals
    cases h
    rfl

@[inherit_doc Machine.lastSaveBytes_of_stepCaller]
theorem Machine.lastSaveBytes_of_stepWriter (h : m.stepWriter c o = some m')
    (was : m.writer.activity.unrecorded? = none) :
    m'.shared.stats.lastSaveBytes = m.shared.stats.lastSaveBytes := by
  cases hw : m.writer <;> simp only [Machine.stepWriter, hw] at h <;> rw [hw] at was
  case ready =>
    obtain ⟨⟨d, signal⟩, -, rfl⟩ := Option.map_eq_some_iff.mp h
    rfl
  case saving d p =>
    cases p with
    | done result => cases result <;> cases h <;> rfl
    | _ =>
      obtain ⟨⟨p', s⟩, hp, rfl⟩ := Option.map_eq_some_iff.mp h
      exact Save.lastSaveBytes_eq hp was
  case stopped => cases h
  all_goals
    cases h
    rfl

@[inherit_doc Machine.lastSaveBytes_of_stepCaller]
theorem Machine.lastSaveBytes_eq (h : m.step c (.of me o) = some m')
    (was : (m.activity me).unrecorded? = none) :
    m'.shared.stats.lastSaveBytes = m.shared.stats.lastSaveBytes := by
  cases me with
  | caller i => exact Machine.lastSaveBytes_of_stepCaller (i := i) h was
  | writer => exact Machine.lastSaveBytes_of_stepWriter h was

/-- The size of the last save is the one of the last blob, unless a save is about to count it. -/
structure Tally.Sized (w : Tally σ M) : Prop where
  unrecorded : ∀ a r, (w.machine.activity a).unrecorded? = some r → r.bytes = lastWritten w.sights
  recorded : (∀ a, (w.machine.activity a).unrecorded? = none) →
    w.machine.shared.stats.lastSaveBytes = lastWritten w.sights

/-- Nothing changes that the sizes depend on. -/
theorem Tally.Sized.keep {w v : Tally σ M} (h : w.Sized)
    (unrecorded : ∀ a, (v.machine.activity a).unrecorded? = (w.machine.activity a).unrecorded?)
    (bytes : v.machine.shared.stats.lastSaveBytes = w.machine.shared.stats.lastSaveBytes)
    (written : lastWritten v.sights = lastWritten w.sights) : v.Sized := by
  refine ⟨fun a r hr => ?_, fun hnone => ?_⟩
  · rw [written]
    exact h.unrecorded a r (by rw [← unrecorded, hr])
  · rw [bytes, written]
    exact h.recorded fun a => by rw [← unrecorded, hnone]

/-- One thread goes on, with nothing more to count and nothing less. -/
theorem Tally.Sized.pass {w v : Tally σ M} (h : w.Sized)
    (others : ∀ a, a ≠ me → v.machine.activity a = w.machine.activity a)
    (same : (v.machine.activity me).unrecorded? = (w.machine.activity me).unrecorded?)
    (bytes : v.machine.shared.stats.lastSaveBytes = w.machine.shared.stats.lastSaveBytes)
    (written : lastWritten v.sights = lastWritten w.sights) : v.Sized := by
  refine h.keep (fun a => ?_) bytes written
  by_cases ha : a = me
  · rw [ha, same]
  · rw [others a ha]

/-- A save writes its blob: it has the write lane in hand, and everybody who has something to count has it,
too. -/
theorem Tally.Sized.write {w v : Tally σ M} (lanes : w.machine.Lanes)
    (holds : (w.machine.activity me).holdsWrite = true)
    (others : ∀ a, a ≠ me → v.machine.activity a = w.machine.activity a) {r : SaveReport}
    (now : (v.machine.activity me).unrecorded? = some r) (written : r.bytes = lastWritten v.sights) :
    v.Sized := by
  refine ⟨fun a r' hr => ?_, fun hnone => ?_⟩
  · by_cases ha : a = me
    · rw [ha, now, Option.some.injEq] at hr
      rw [← hr, written]
    · rw [others a ha] at hr
      exact absurd (lanes.apart.write a me (Activity.holdsWrite_of_unrecorded? hr) holds) ha
  · rw [hnone me] at now
    cases now

/-- A save counts what it has written. -/
theorem Tally.Sized.count {w v : Tally σ M} (h : w.Sized)
    (others : ∀ a, a ≠ me → v.machine.activity a = w.machine.activity a) {r : SaveReport}
    (was : (w.machine.activity me).unrecorded? = some r) (now : (v.machine.activity me).unrecorded? = none)
    (bytes : v.machine.shared.stats.lastSaveBytes = r.bytes)
    (written : lastWritten v.sights = lastWritten w.sights) : v.Sized := by
  refine ⟨fun a r' hr => ?_, fun _ => ?_⟩
  · by_cases ha : a = me
    · rw [ha, now] at hr
      cases hr
    · rw [written]
      exact h.unrecorded a r' (by rw [← others a ha, hr])
  · rw [bytes, written]
    exact h.unrecorded me r was

/-- **Every step keeps the size.** A save has the write lane in hand from writing its blob to counting it,
so that nobody else writes in between. -/
theorem Tally.Sized.step {w v : Tally σ M} (h : w.Sized) (lanes : w.machine.Lanes)
    (hstep : w.step c l = some v) : v.Sized := by
  obtain ⟨m, hm, rfl⟩ := Option.map_eq_some_iff.mp hstep
  have hwritten := Machine.lastWritten_append (c := c) w.machine m l w.sights
  have hsame (hdeed : ∀ model header blob, w.machine.deed? c l ≠ some (.saved model header blob)) :
      lastWritten (w.sights ++ w.machine.sights c m l) = lastWritten w.sights := by
    rw [hwritten]
    split
    · exact absurd ‹_› (hdeed _ _ _)
    · rfl
  cases turn_of_step hm with
  | load me o p p' was now others step =>
    refine h.pass others (by rw [was, now]; rfl) (Load.lastSaveBytes_eq step) (hsame fun _ _ _ hdeed => ?_)
    rw [Machine.deed?_of, was] at hdeed
    cases hdeed
  | save me o p p' was now others step =>
    have hdeed : w.machine.deed? c (.of me o) = p.deed? c o w.machine.shared.slot := by
      rw [Machine.deed?_of, was]
      rfl
    rw [hdeed] at hwritten hsame
    cases Save.sizes_of_step step with
    | writes model header blob deed now' holds bytes =>
      rw [deed] at hwritten
      exact Tally.Sized.write lanes (by rw [was]; exact holds) others (by rw [now]; exact now') hwritten.symm
    | counts r deed was' now' bytes =>
      exact h.count others (by rw [was]; exact was') (by rw [now]; exact now') bytes
        (hsame fun _ _ _ hd => by rw [deed] at hd; cases hd)
    | keeps deed same bytes =>
      exact h.pass others (by rw [was, now]; exact same) bytes
        (hsame fun _ _ _ hd => by rw [deed] at hd; cases hd)
  | invalidate me o p p' was now others step =>
    obtain ⟨hbytes, hdeed⟩ := Invalidation.lastSaveBytes_eq (M := M) step
    refine h.pass others (by rw [was, now]; rfl) hbytes (hsame fun model header blob hd => ?_)
    rw [Machine.deed?_of, was] at hd
    exact hdeed model header blob hd
  | begin i call last was eq =>
    subst eq
    refine h.pass (fun a (ha : a ≠ .caller i) => Machine.activity_move_of_ne _ _ _ ha) ?_ rfl
      (hsame fun _ _ _ hd => by cases hd)
    rw [Machine.activity_move_self, Machine.activity, was]
    cases call <;> rfl
  | edge me o was others core aside =>
    have hbefore := Activity.unrecorded?_of_isAtEdge was
    refine h.pass others ?_ (Machine.lastSaveBytes_eq hm hbefore) (hsame fun _ _ _ hd => ?_)
    · rw [hbefore, Activity.unrecorded?_of_isAtEdge aside.isAtEdge]
    · rw [Machine.deed?_of, Activity.deed?_of_isAtEdge was] at hd
      cases hd
  | host holder same shared_eq | stranger slot same shared_eq =>
    refine h.keep (fun a => by rw [same]) ?_ (hsame fun _ _ _ hd => by cases hd)
    rw [shared_eq]

end Steps

/-! ### The result -/

section Runs

variable {c : Setup σ M} {slot : σ} {holder : Holder M} {reports : Reports} {ls : List (Machine.Label σ M)}
  {w : Tally σ M}

/-- A diagnostic that is seen. -/
def Sight.diagnostic? : Sight M → Option Diagnostic
  | .reported d => some d
  | _ => none

/-- **The balance of a run.** -/
theorem Tally.balance_of_run (hrun : run (Tally.step c) (.start slot holder reports) ls = some w)
    {threads : Finset ThreadId} (hls : ∀ l ∈ ls, l.IsWithin threads) (x : Item) :
    (x.counter w.machine.shared.stats : Int) = x.seen w.sights + x.ahead threads w.machine := by
  refine run_induction (P := fun w : Tally σ M => (x.counter w.machine.shared.stats : Int) =
    x.seen w.sights + x.ahead threads w.machine) hrun hls ?_ ?_
  · have hcallers : ∑ i ∈ threads, x.ofCaller ((Machine.start slot holder reports).callers i) = 0 :=
      Finset.sum_eq_zero fun i _ => by cases x <;> rfl
    simp only [Tally.start, Item.ahead, hcallers]
    cases x <;> rfl
  · intro w l v hw hl hstep
    obtain ⟨m, hm, rfl⟩ := Option.map_eq_some_iff.mp hstep
    have hbalance := Machine.balance hm hl x
    show (x.counter m.shared.stats : Int) = x.seen (w.sights ++ w.machine.sights c m l) + x.ahead threads m
    rw [Item.seen_append]
    omega

/-- The sink has been given the diagnostics that have been seen, in their order. -/
theorem Tally.reports_of_run (hrun : run (Tally.step c) (.start slot holder reports) ls = some w) :
    w.machine.shared.reports = reports.addAll c.sink (w.sights.filterMap Sight.diagnostic?) := by
  refine run_induction (Q := fun _ => True) (P := fun w : Tally σ M =>
    w.machine.shared.reports = reports.addAll c.sink (w.sights.filterMap Sight.diagnostic?)) hrun
    (fun _ _ => trivial) rfl ?_
  intro w l v hw _ hstep
  obtain ⟨m, hm, rfl⟩ := Option.map_eq_some_iff.mp hstep
  have hsights : (w.machine.sights c m l).filterMap Sight.diagnostic? = (w.machine.report? c l).toList := by
    have hdeed : ((w.machine.deed? c l).map Sight.done).toList.filterMap Sight.diagnostic? = [] := by
      cases w.machine.deed? c l <;> rfl
    rw [Machine.filterMap_sights (fun _ => rfl) (fun _ => rfl) (fun _ => rfl), hdeed, List.append_nil]
    cases w.machine.report? c l <;> rfl
  show m.shared.reports = reports.addAll c.sink
    ((w.sights ++ w.machine.sights c m l).filterMap Sight.diagnostic?)
  rw [reports_of_step hm, hw, List.filterMap_append, hsights, Reports.addAll_append]

theorem Tally.sized_of_run (hrun : run (Tally.step c) (.start slot holder reports) ls = some w) :
    w.machine.Lanes ∧ w.Sized := by
  refine run_induction (Q := fun _ => True) (P := fun w : Tally σ M => w.machine.Lanes ∧ w.Sized) hrun
    (fun _ _ => trivial) ⟨Machine.lanes_start slot holder reports, ?_⟩ ?_
  · refine ⟨fun a r hr => ?_, fun _ => rfl⟩
    cases a <;> cases hr
  · intro w l v ⟨lanes, hw⟩ _ hstep
    obtain ⟨m, hm, rfl⟩ := Option.map_eq_some_iff.mp hstep
    exact ⟨lanes.turn (turn_of_step hm), hw.step lanes hstep⟩

/-- Nobody is at work: callers are outside, and the writer waits or has stopped. -/
structure Machine.IsQuiet (m : Machine σ M) : Prop where
  callers : ∀ i, ∃ last, m.callers i = .outside last
  writer : m.writer = .ready ∨ m.writer = .stopped

/-- Nothing is ahead of what is seen when nobody is at work. -/
theorem Machine.IsQuiet.ahead_eq_zero {m : Machine σ M} (h : m.IsQuiet) (x : Item)
    (threads : Finset ThreadId) :
    x.ahead threads m = 0 := by
  have hcallers : ∑ i ∈ threads, x.ofCaller (m.callers i) = 0 := by
    refine Finset.sum_eq_zero fun i _ => ?_
    obtain ⟨last, hlast⟩ := h.callers i
    rw [hlast]
    cases x <;> rfl
  have hwriter : x.ofWriter m.writer = 0 := by
    rcases h.writer with hw | hw <;> rw [hw] <;> cases x <;> rfl
  rw [Item.ahead, hcallers, hwriter]
  rfl

/-- Nothing is waiting to be counted when nobody is at work. -/
theorem Machine.IsQuiet.unrecorded?_eq_none {m : Machine σ M} (h : m.IsQuiet) (a : Actor) :
    (m.activity a).unrecorded? = none := by
  cases a with
  | writer =>
    simp only [activity]
    rcases h.writer with hw | hw <;> rw [hw] <;> rfl
  | caller i =>
    obtain ⟨last, hlast⟩ := h.callers i
    simp only [activity, hlast]
    rfl

/-- Nothing that is seen counts as both. -/
theorem Item.seen_or {p q : Sight M → Bool} (hpq : ∀ v, p v = true → q v = false) (sights : List (Sight M)) :
    sights.countP (fun v => p v || q v) = sights.countP p + sights.countP q := by
  induction sights with
  | nil => rfl
  | cons v sights ih =>
    rw [List.countP_cons, List.countP_cons, List.countP_cons, ih]
    cases hp : p v with
    | true => simp [hpq v hp, Nat.add_right_comm]
    | false => simp [Nat.add_assoc]

/-- **The counters account for everything**, whatever callers and the writer do, and in whatever order they
go on.  When nobody is at work, memory hits and storage loads are the loads that have given a snapshot; load
failures are the diagnostics of loads, all of which the sink has been given; completed saves are the blobs
that have been put into the slot, and the saves that have come to a report, of callers and of the writer;
save failures are the errors of callers and the diagnostics of the writer; requests and merged requests are
what they say; and the size of the last save is the one of the last blob. -/
theorem counters_account_for_everything
    (hrun : run (Tally.step c) (.start slot holder reports) ls = some w) (hquiet : w.machine.IsQuiet) :
    let stats := w.machine.shared.stats
    stats.memoryHits + stats.storageLoads = w.sights.countP Sight.isSnapshot ∧
      stats.loadFailures = w.sights.countP Sight.isLoadTrouble ∧
      stats.savesCompleted = w.sights.countP Sight.isWrite ∧
      stats.savesCompleted = w.sights.countP Sight.isReport + w.sights.countP Sight.isBackgroundReport ∧
      stats.saveFailures = w.sights.countP Sight.isError + w.sights.countP Sight.isSaveTrouble ∧
      stats.savesRequested = w.sights.countP Sight.isRequest ∧
      stats.savesCoalesced = w.sights.countP Sight.isMerge ∧
      stats.lastSaveBytes = lastWritten w.sights ∧
      w.machine.shared.reports = reports.addAll c.sink (w.sights.filterMap Sight.diagnostic?) := by
  obtain ⟨threads, hls⟩ := Machine.Label.exists_isWithin ls
  have hitem (x : Item) : x.counter w.machine.shared.stats = x.seen w.sights := by
    have hbalance := Tally.balance_of_run hrun hls x
    rw [hquiet.ahead_eq_zero, add_zero] at hbalance
    exact Int.ofNat_inj.mp hbalance
  obtain ⟨-, hsized⟩ := Tally.sized_of_run hrun
  refine ⟨hitem .present, hitem .troubles, hitem .written, ?_, ?_, hitem .requested,
    hitem .coalesced, ?_, ?_⟩
  · rw [← Item.seen_or]
    · exact hitem .completed
    · intro v hv
      cases v <;> first | rfl | cases hv
  · rw [← Item.seen_or]
    · exact hitem .failed
    · intro v hv
      cases v <;> first | rfl | cases hv
  · exact hsized.recorded hquiet.unrecorded?_eq_none
  · exact Tally.reports_of_run hrun

end Runs

/-- Two requests for a save, of which the second joins the first; the save of the writer; and a load. -/
def mergedRun : List (Machine.Label MemorySlot Value) :=
  .call 0 .schedule :: List.replicate 3 (.caller 0 {}) ++
    .call 1 .schedule :: List.replicate 4 (.caller 1 {}) ++
    List.replicate 13 (.writer {}) ++ .call 0 .load :: List.replicate 2 (.caller 0 {})

/-- One save is made for both requests, and the load finds its model in memory. -/
theorem counters_account_for_everything_merged :
    ∃ w, run (Tally.step textSetup) (.start {} { current := some (.string "a") } {}) mergedRun = some w ∧
      w.machine.IsQuiet ∧
      w.machine.shared.stats.memoryHits + w.machine.shared.stats.storageLoads = 1 ∧
      w.machine.shared.stats.savesRequested = 2 ∧ w.machine.shared.stats.savesCoalesced = 1 ∧
      w.machine.shared.stats.savesCompleted = w.sights.countP Sight.isWrite ∧
      w.machine.shared.stats.savesCompleted = 0 + 1 ∧
      w.machine.shared.stats.lastSaveBytes = lastWritten w.sights := by
  obtain ⟨w, hw, hcallers, hwriter, hloads, hrequests, hmerges, hreports, hbackground⟩ : ∃ w,
      run (Tally.step textSetup) (.start {} { current := some (.string "a") } {}) mergedRun = some w ∧
        (∀ i, ∃ last, w.machine.callers i = .outside last) ∧ w.machine.writer = .ready ∧
          w.sights.countP Sight.isSnapshot = 1 ∧ w.sights.countP Sight.isRequest = 2 ∧
            w.sights.countP Sight.isMerge = 1 ∧ w.sights.countP Sight.isReport = 0 ∧
              w.sights.countP Sight.isBackgroundReport = 1 :=
    ⟨_, rfl, fun | 0 | 1 | _ + 2 => ⟨_, rfl⟩, rfl, rfl, rfl, rfl, rfl, rfl⟩
  have hquiet : w.machine.IsQuiet := ⟨hcallers, .inl hwriter⟩
  obtain ⟨hpresent, -, hwrites, hcompleted, -, hrequested, hcoalesced, hbytes, -⟩ :=
    counters_account_for_everything hw hquiet
  refine ⟨w, hw, hquiet, ?_, ?_, ?_, hwrites, ?_, hbytes⟩
  · rw [hpresent, hloads]
  · rw [hrequested, hrequests]
  · rw [hcoalesced, hmerges]
  · rw [hcompleted, hreports, hbackground]

end SnapStore.Cache
