import SnapStore.Holder.Machine

namespace SnapStore.Holder

/-!
# No update is lost

A thread keeps the lock of a holder from before it looks at the model until after it has counted its change.
So calls take effect as if nothing interrupted them, one after another, in the order in which they release
the lock.

* `Ledger` is a holder with its threads and with every call that has been answered; it only looks on.
* `Sequential` — what has been answered is what the same calls come to one after another.
* `Editor.Works` — what a thread has done of its call so far, by the place where it stands;
  `Ledger.Sound.step` says that every step keeps this.
* `HasInstalled` and `IsEmptied` — what some calls have left, read off the calls alone.
* `updates_are_not_lost` puts it together.
-/

variable {M : Type}

/-! ### Calls that are answered -/

/-- What comes of a call that nothing interrupts. -/
def perform (h : Holder M) : Call M → Answer M × Holder M
  | .change (.replace model) => (.revision (some (h.replace model).1), (h.replace model).2)
  | .change (.update edit) => (.revision (h.update edit).1, (h.update edit).2)
  | .change .clear => (.cleared, h.clear)
  | .look => (.seen h.current, h)

/-- A call that has been answered. -/
structure Operation (M : Type) where
  thread : ThreadId
  call : Call M
  answer : Answer M
  /-- The holder when the answer was given. -/
  holder : Holder M

/-- The revision that a change has returned, if it has changed the model. -/
def Operation.revision? (op : Operation M) : Option UInt64 :=
  match op.answer with
  | .revision n => n
  | _ => none

/-- Whether the call has forgotten the model. -/
def Operation.clears (op : Operation M) : Bool :=
  match op.call with
  | .change .clear => true
  | _ => false

/-- The revisions that have been returned, in the order of the lock. -/
def revisions (ops : List (Operation M)) : List UInt64 := ops.filterMap Operation.revision?

/-- The holder after some calls. -/
def latest (initial : Holder M) (ops : List (Operation M)) : Holder M :=
  (ops.getLast?.map (·.holder)).getD initial

/-- A holder with its threads, what they have asked for last, and the calls that have been answered. -/
structure Ledger (M : Type) where
  machine : Machine M
  calls : ThreadId → Call M := fun _ => .look
  ops : List (Operation M) := []

namespace Ledger

/-- A holder that nobody is working on. -/
def start (holder : Holder M) : Ledger M where
  machine := .start holder

/-- What is entered for a thread that has gone on: its call, if it has just been answered. -/
def answered? (w : Ledger M) (m : Machine M) (i : ThreadId) : Option (Operation M) :=
  match m.editors i with
  | .outside (some answer) => some ⟨i, w.calls i, answer, m.holder⟩
  | _ => none

/-- One step of one thread. -/
def step (l : Machine.Label M) (w : Ledger M) : Option (Ledger M) :=
  (w.machine.step l).map fun machine =>
    match l with
    | .call i c => { w with machine, calls := goTo w.calls i c }
    | .editor i => { w with machine, ops := w.ops ++ (w.answered? machine i).toList }

/-- The ledger only looks on: every run of the holder is a run of the ledger. -/
theorem exists_run {w : Ledger M} {ls : List (Machine.Label M)} {m : Machine M}
    (h : run Machine.step w.machine ls = some m) : ∃ v, run Ledger.step w ls = some v ∧ v.machine = m := by
  refine exists_run_of_run (fun l w => ?_) h
  rw [Ledger.step, Option.map_map]
  have hlooks : (Ledger.machine ∘ fun machine => match l with
      | .call i c => { w with machine, calls := goTo w.calls i c }
      | .editor i => { w with machine, ops := w.ops ++ (w.answered? machine i).toList }) = id := by
    funext machine
    cases l <;> rfl
  rw [hlooks, Option.map_id_fun, id]

end Ledger

/-! ### One call after another -/

/-- Calls have been answered as if each of them had begun when the one before it was over. -/
inductive Sequential (initial : Holder M) : List (Operation M) → Holder M → Prop
  | start : Sequential initial [] initial
  | snoc {ops : List (Operation M)} {h : Holder M} (before : Sequential initial ops h) (op : Operation M)
      (performs : h.perform op.call = (op.answer, op.holder)) : Sequential initial (ops ++ [op]) op.holder

namespace Sequential

variable {initial h : Holder M} {ops : List (Operation M)}

theorem eq_latest (hops : Sequential initial ops h) : h = latest initial ops := by
  cases hops with
  | start => rfl
  | snoc before op performs => simp [latest]

/-- Each call finds what those before it have left. -/
theorem performs_of_append {before after : List (Operation M)} {op : Operation M}
    (hops : Sequential initial (before ++ op :: after) h) :
    Sequential initial before (latest initial before) ∧
      (latest initial before).perform op.call = (op.answer, op.holder) := by
  generalize hall : before ++ op :: after = all at hops
  induction hops generalizing after with
  | start => simp at hall
  | snoc hbefore last performs ih =>
    rcases eq_or_exists_of_concat hall.symm with ⟨rfl, rfl, -⟩ | ⟨init, -, hfront⟩
    · rw [← hbefore.eq_latest]
      exact ⟨hbefore, performs⟩
    · exact ih hfront.symm

/-- A change that counts is the next one. -/
theorem revision_of_perform {call : Call M} {op : Operation M}
    (performs : h.perform call = (op.answer, op.holder)) :
    op.revision? = none ∧ op.holder.revision = h.revision ∨
      op.revision? = some (h.revision + 1) ∧ op.holder.revision = h.revision + 1 := by
  cases call with
  | change c =>
    cases c with
    | replace model =>
      simp only [perform, replace, Prod.mk.injEq] at performs
      refine .inr ⟨?_, by rw [← performs.2]⟩
      rw [Operation.revision?, ← performs.1]
    | update edit =>
      cases hcurrent : h.current <;> simp only [perform, update, hcurrent, Prod.mk.injEq] at performs
      · refine .inl ⟨?_, by rw [← performs.2]⟩
        rw [Operation.revision?, ← performs.1]
      · refine .inr ⟨?_, by rw [← performs.2]⟩
        rw [Operation.revision?, ← performs.1]
    | clear =>
      simp only [perform, clear, Prod.mk.injEq] at performs
      refine .inl ⟨?_, by rw [← performs.2]⟩
      rw [Operation.revision?, ← performs.1]
  | look =>
    simp only [perform, Prod.mk.injEq] at performs
    refine .inl ⟨?_, by rw [← performs.2]⟩
    rw [Operation.revision?, ← performs.1]

/-- **Revisions.** They count on from the first one, modulo `2 ^ 64`, without a gap. -/
theorem revisions_eq (hops : Sequential initial ops h) :
    revisions ops =
        (List.range' 1 (revisions ops).length).map (fun k => initial.revision + UInt64.ofNat k) ∧
      h.revision = initial.revision + UInt64.ofNat (revisions ops).length := by
  induction hops with
  | start => exact ⟨rfl, (UInt64.add_zero _).symm⟩
  | @snoc ops h before op performs ih =>
    obtain ⟨hrange, hlast⟩ := ih
    have happend : revisions (ops ++ [op]) = revisions ops ++ op.revision?.toList := by
      rw [revisions, revisions, List.filterMap_append, List.filterMap_cons]
      cases op.revision? <;> rfl
    rcases revision_of_perform performs with ⟨hnone, hsame⟩ | ⟨hsome, hnext⟩
    · rw [happend, hnone, hsame, Option.toList_none, List.append_nil]
      exact ⟨hrange, hlast⟩
    · have hlength : (revisions ops ++ [h.revision + 1]).length = (revisions ops).length + 1 := by simp
      have hcount : h.revision + 1 = initial.revision + UInt64.ofNat ((revisions ops).length + 1) := by
        rw [hlast, UInt64.ofNat_add, UInt64.add_assoc]
        rfl
      rw [happend, hsome, hnext, Option.toList_some, hlength, List.range'_1_concat,
        List.map_append, ← hrange, Nat.add_comm 1, hcount]
      exact ⟨rfl, rfl⟩

/-- As long as the revisions stay below `2 ^ 64`, they are the numbers behind the first one, each of them
once. -/
theorem toNat_revisions (hops : Sequential initial ops h)
    (hcount : initial.revision.toNat + (revisions ops).length < UInt64.size) :
    (revisions ops).map (·.toNat) = List.range' (initial.revision.toNat + 1) (revisions ops).length ∧
      (revisions ops).Nodup := by
  have hrange : (revisions ops).map (·.toNat) =
      List.range' (initial.revision.toNat + 1) (revisions ops).length := by
    rw [← List.map_add_range', hops.revisions_eq.1, List.map_map, List.length_map, List.length_range']
    refine List.map_congr_left fun k hk => ?_
    have hbelow : initial.revision.toNat + k < UInt64.size := by
      have := (List.mem_range'_1.mp hk).2
      omega
    have hk : k < UInt64.size := Nat.lt_of_le_of_lt (Nat.le_add_left k _) hbelow
    show (initial.revision + UInt64.ofNat k).toNat = initial.revision.toNat + k
    rw [UInt64.toNat_add, UInt64.toNat_ofNat_of_lt' hk, Nat.mod_eq_of_lt hbelow]
  have hnodup : ((revisions ops).map (·.toNat)).Nodup := by
    rw [hrange]
    exact List.nodup_range'
  exact ⟨hrange, List.Pairwise.of_map _ (fun _ _ hne heq => hne (by rw [heq])) hnodup⟩

end Sequential

/-! ### What some calls have left -/

/-- A revision is the initial one, or that of a call, and this is the model that it has installed. -/
def HasInstalled (initial : Holder M) (ops : List (Operation M)) (r : UInt64) (model : M) : Prop :=
  r = initial.revision ∧ initial.current = some model ∨
    ∃ op ∈ ops, op.revision? = some r ∧ op.holder.current = some model

/-- The holder has been cleared since the last change that counts, or never had a model. -/
def IsEmptied (initial : Holder M) (ops : List (Operation M)) : Prop :=
  (initial.current = none ∧ ∀ op ∈ ops, op.revision? = none) ∨
    ∃ before op after, ops = before ++ op :: after ∧ op.clears = true ∧ ∀ x ∈ after, x.revision? = none

section Left

variable {initial h : Holder M} {ops : List (Operation M)} {op : Operation M}

theorem HasInstalled.snoc {r : UInt64} {model : M} (hr : HasInstalled initial ops r model)
    (op : Operation M) :
    HasInstalled initial (ops ++ [op]) r model := by
  rcases hr with hinitial | ⟨x, hx, hcounts⟩
  · exact .inl hinitial
  · exact .inr ⟨x, List.mem_append_left _ hx, hcounts⟩

theorem isEmptied_snoc_of_clears (hop : op.clears = true) : IsEmptied initial (ops ++ [op]) :=
  .inr ⟨ops, op, [], rfl, hop, fun x hx => by cases hx⟩

/-- A call that neither clears nor counts does not matter. -/
theorem isEmptied_snoc_iff (hop : op.clears = false) (hnone : op.revision? = none) :
    IsEmptied initial (ops ++ [op]) ↔ IsEmptied initial ops := by
  constructor
  · rintro (⟨hinitial, hall⟩ | ⟨before, x, after, hops, hx, hafter⟩)
    · exact .inl ⟨hinitial, fun y hy => hall y (List.mem_append_left _ hy)⟩
    · rcases eq_or_exists_of_concat hops with ⟨-, rfl, -⟩ | ⟨init, rfl, hfront⟩
      · rw [hop] at hx
        cases hx
      · exact .inr ⟨before, x, init, hfront, hx, fun y hy => hafter y (List.mem_append_left _ hy)⟩
  · rintro (⟨hinitial, hall⟩ | ⟨before, x, after, rfl, hx, hafter⟩)
    · refine .inl ⟨hinitial, fun y hy => ?_⟩
      rcases List.mem_append.mp hy with hy | hy
      · exact hall y hy
      · rw [List.mem_singleton.mp hy, hnone]
    · refine .inr ⟨before, x, after ++ [op], by simp, hx, fun y hy => ?_⟩
      rcases List.mem_append.mp hy with hy | hy
      · exact hafter y hy
      · rw [List.mem_singleton.mp hy, hnone]

/-- After a change that counts there is a model. -/
theorem not_isEmptied_snoc {r : UInt64} (hop : op.clears = false) (hr : op.revision? = some r) :
    ¬ IsEmptied initial (ops ++ [op]) := by
  rintro (⟨-, hall⟩ | ⟨before, x, after, hops, hx, hafter⟩)
  · have hnone := hall op (List.mem_append_right _ List.mem_cons_self)
    rw [hr] at hnone
    cases hnone
  · rcases eq_or_exists_of_concat hops with ⟨-, rfl, -⟩ | ⟨init, rfl, -⟩
    · rw [hop] at hx
      cases hx
    · have hnone := hafter op (List.mem_append_right _ List.mem_cons_self)
      rw [hr] at hnone
      cases hnone

/-- **What is left.** The model is the one of the latest revision, and there is none exactly if the calls
have left none. -/
theorem Sequential.left (hops : Sequential initial ops h) :
    (∀ model, h.current = some model → HasInstalled initial ops h.revision model) ∧
      (h.current = none ↔ IsEmptied initial ops) := by
  induction hops with
  | start =>
    refine ⟨fun model hmodel => .inl ⟨rfl, hmodel⟩, ?_, ?_⟩
    · exact fun hnone => .inl ⟨hnone, fun op hop => by cases hop⟩
    · rintro (⟨hnone, -⟩ | ⟨before, op, after, hops, -⟩)
      · exact hnone
      · simp at hops
  | @snoc ops h before op performs ih =>
    obtain ⟨hinstalled, hempty⟩ := ih
    -- a change that counts has installed the model itself
    have hcounts {r : UInt64} {installed : M} (hclears : op.clears = false) (hr : op.revision? = some r)
        (hholder : op.holder = ⟨some installed, r⟩) :
        (∀ model, op.holder.current = some model →
          HasInstalled initial (ops ++ [op]) op.holder.revision model) ∧
          (op.holder.current = none ↔ IsEmptied initial (ops ++ [op])) := by
      have hfull : ¬ IsEmptied initial (ops ++ [op]) := not_isEmptied_snoc hclears hr
      refine ⟨fun model hmodel => .inr ⟨op, by simp, ?_, hmodel⟩, iff_of_false ?_ hfull⟩
      · rw [hr, hholder]
      · rw [hholder]
        simp
    -- any other call that does not clear leaves everything as it is
    have hkeeps (hclears : op.clears = false) (hr : op.revision? = none) (hholder : op.holder = h) :
        (∀ model, op.holder.current = some model →
          HasInstalled initial (ops ++ [op]) op.holder.revision model) ∧
          (op.holder.current = none ↔ IsEmptied initial (ops ++ [op])) := by
      rw [hholder]
      exact ⟨fun model hmodel => (hinstalled model hmodel).snoc op,
        hempty.trans (isEmptied_snoc_iff hclears hr).symm⟩
    obtain ⟨thread, call, answer, holder⟩ := op
    replace performs : h.perform call = (answer, holder) := performs
    cases call with
    | look =>
      obtain ⟨rfl, rfl⟩ := Prod.mk.inj performs
      exact hkeeps rfl rfl rfl
    | change c =>
      cases c with
      | replace model =>
        obtain ⟨rfl, rfl⟩ := Prod.mk.inj performs
        exact hcounts rfl rfl rfl
      | update edit =>
        cases hcurrent : h.current <;> simp only [perform, update, hcurrent] at performs <;>
          obtain ⟨rfl, rfl⟩ := Prod.mk.inj performs
        · exact hkeeps rfl rfl rfl
        · exact hcounts rfl rfl rfl
      | clear =>
        obtain ⟨rfl, rfl⟩ := Prod.mk.inj performs
        refine ⟨fun model hmodel => ?_, iff_of_true rfl (isEmptied_snoc_of_clears rfl)⟩
        replace hmodel : (none : Option M) = some model := hmodel
        cases hmodel

end Left

/-! ### Where the threads stand -/

/-- Whether a thread has the lock in hand. -/
def Editor.holdsLock : Editor M → Bool
  | .outside _ | .looking | .entering _ => false
  | _ => true

/-- What a thread has done of its call so far, by the place where it stands: `h` is the holder that the calls
before it have left, `now` is the holder as it is. -/
def Editor.Works (call : Call M) (h now : Holder M) : Editor M → Prop
  | .outside _ => True
  | .looking => call = .look
  | .entering c => call = .change c
  | .holding c => call = .change c ∧ now = h
  | .editing model edit => call = .change (.update edit) ∧ h.current = some model ∧ now = h
  | .installing model =>
    h.perform call = (.revision (some (h.revision + 1)), ⟨some model, h.revision + 1⟩) ∧ now = h
  | .counting =>
    h.perform call = (.revision (some (h.revision + 1)), ⟨now.current, h.revision + 1⟩) ∧
      now.revision = h.revision
  | .leaving a => h.perform call = (a, now)

/-- Without the lock a thread knows nothing about the holder. -/
theorem Editor.Works.of_holdsLock {call : Call M} {h now h' now' : Holder M} {e : Editor M}
    (hworks : e.Works call h now) (hlock : e.holdsLock = false) : e.Works call h' now' := by
  cases e with
  | outside | looking | entering => exact hworks
  | _ => cases hlock

/-- The calls that have been answered have left the holder `h`, and one thread at most is at work on it. -/
structure Ledger.Sound (initial h : Holder M) (w : Ledger M) : Prop where
  ops : Sequential initial w.ops h
  lock : ∀ i, w.machine.lock = some i ↔ (w.machine.editors i).holdsLock = true
  works : ∀ i, (w.machine.editors i).Works (w.calls i) h w.machine.holder
  free : w.machine.lock = none → w.machine.holder = h

namespace Ledger

variable {initial h : Holder M} {w v : Ledger M} {m : Machine M} {i : ThreadId}

theorem sound_start (initial : Holder M) : (Ledger.start initial).Sound initial initial :=
  ⟨.start, fun _ => iff_of_false (fun h => by cases h) Bool.false_ne_true, fun _ => trivial, fun _ => rfl⟩

/-- If the lock is free or in the hands of a thread, nobody else has it. -/
theorem Sound.others (hw : w.Sound initial h) (hlock : w.machine.lock = none ∨ w.machine.lock = some i)
    {j : ThreadId} (hj : j ≠ i) : (w.machine.editors j).holdsLock = false := by
  refine Bool.eq_false_iff.mpr fun hholds => ?_
  have hother : w.machine.lock = some j := (hw.lock j).mpr hholds
  rcases hlock with hlock | hlock <;> rw [hlock] at hother <;> cases hother
  exact hj rfl

/-- A thread goes on while nobody else has the lock. -/
theorem Sound.move (hw : w.Sound initial h) (hlock : w.machine.lock = none ∨ w.machine.lock = some i)
    {e : Editor M} {h' holder : Holder M} {lock : Option ThreadId} {ops : List (Operation M)}
    (sequential : Sequential initial ops h') (works : e.Works (w.calls i) h' holder)
    (held : lock = if e.holdsLock then some i else none) (free : e.holdsLock = false → holder = h') :
    Sound initial h' { w with
      machine := Machine.move { w.machine with holder, lock } i e
      ops } := by
  refine ⟨sequential, fun j => ?_, fun j => ?_, fun hnone => ?_⟩
  · show lock = some j ↔ (goTo w.machine.editors i e j).holdsLock = true
    by_cases hj : j = i
    · rw [hj, goTo_self, held]
      cases e.holdsLock <;> simp
    · have hother := hw.others hlock hj
      rw [goTo_of_ne _ _ hj, hother, held]
      cases e.holdsLock <;> simp [Ne.symm hj]
  · show (goTo w.machine.editors i e j).Works (w.calls j) h' holder
    by_cases hj : j = i
    · rw [hj, goTo_self]
      exact works
    · rw [goTo_of_ne _ _ hj]
      exact (hw.works j).of_holdsLock (hw.others hlock hj)
  · refine free ?_
    replace hnone : lock = none := hnone
    rw [held] at hnone
    cases hholds : e.holdsLock with
    | false => rfl
    | true =>
      rw [hholds] at hnone
      cases hnone

/-- A thread goes on with the lock in hand. -/
theorem Sound.within (hw : w.Sound initial h) (was : (w.machine.editors i).holdsLock = true) {e : Editor M}
    {holder : Holder M} (now : e.holdsLock = true) (works : e.Works (w.calls i) h holder) :
    Sound initial h { w with
      machine := Machine.move { w.machine with holder } i e
      ops := w.ops ++ (w.answered? (Machine.move { w.machine with holder } i e) i).toList } := by
  have hlock : w.machine.lock = some i := (hw.lock i).mpr was
  -- nothing is entered before the lock is released
  have hanswered : w.answered? (Machine.move { w.machine with holder } i e) i = none := by
    simp only [answered?, Machine.move, goTo_self]
    cases e <;> first | rfl | cases now
  rw [hanswered, Option.toList_none, List.append_nil]
  refine hw.move (.inr hlock) hw.ops works ?_ fun hfree => ?_
  · rw [now, hlock, if_pos rfl]
  · rw [now] at hfree
    cases hfree

/-- A thread is given its answer, which is what its call comes to if nothing interrupts it. -/
theorem Sound.answer (hw : w.Sound initial h) (hlock : w.machine.lock = none ∨ w.machine.lock = some i)
    {a : Answer M} (performs : h.perform (w.calls i) = (a, w.machine.holder)) :
    Sound initial w.machine.holder { w with
      machine := Machine.move { w.machine with lock := none } i (.outside (some a))
      ops := w.ops ++
        (w.answered? (Machine.move { w.machine with lock := none } i (.outside (some a))) i).toList } := by
  have hanswered : w.answered? (Machine.move { w.machine with lock := none } i (.outside (some a))) i =
      some ⟨i, w.calls i, a, w.machine.holder⟩ := by
    simp only [answered?, Machine.move, goTo_self]
  rw [hanswered, Option.toList_some]
  exact hw.move hlock (hw.ops.snoc ⟨i, w.calls i, a, w.machine.holder⟩ performs) trivial rfl fun _ => rfl

/-- A thread that is outside makes a call. -/
theorem Sound.call (hw : w.Sound initial h) {last : Option (Answer M)}
    (was : w.machine.editors i = .outside last) (c : Call M) :
    Sound initial h { w with machine := w.machine.move i (.start c), calls := goTo w.calls i c } := by
  have hholds : (w.machine.editors i).holdsLock = false := by rw [was]; rfl
  have hstart : (Editor.start c).holdsLock = false := by cases c <;> rfl
  refine ⟨hw.ops, fun j => ?_, fun j => ?_, hw.free⟩
  · show w.machine.lock = some j ↔ (goTo w.machine.editors i (.start c) j).holdsLock = true
    by_cases hj : j = i
    · rw [hj, goTo_self, hstart, ← hholds]
      exact hw.lock i
    · rw [goTo_of_ne _ _ hj]
      exact hw.lock j
  · show (goTo w.machine.editors i (.start c) j).Works (goTo w.calls i c j) h w.machine.holder
    by_cases hj : j = i
    · rw [hj, goTo_self, goTo_self]
      cases c <;> exact rfl
    · rw [goTo_of_ne _ _ hj, goTo_of_ne _ _ hj]
      exact hw.works j

/-- **Every step keeps it** that calls are answered one after another. -/
theorem Sound.step {l : Machine.Label M} (hw : w.Sound initial h) (hstep : w.step l = some v) :
    ∃ h', v.Sound initial h' := by
  obtain ⟨m, hm, rfl⟩ := Option.map_eq_some_iff.mp hstep
  cases l with
  | call i c =>
    simp only [Machine.step] at hm
    split at hm <;> rename_i hi <;> cases hm
    exact ⟨h, hw.call hi c⟩
  | editor i =>
    have hworks := hw.works i
    have hheld : (w.machine.editors i).holdsLock = true → w.machine.lock = some i := (hw.lock i).mpr
    cases hi : w.machine.editors i <;> simp only [Machine.step, Machine.stepEditor, hi] at hm <;>
      rw [hi] at hworks hheld
    case outside last => cases hm
    case looking =>
      split at hm <;> rename_i hfree <;> cases hm
      -- nobody is at work, so that this is what the calls before it have left
      have hnone : w.machine.lock = none := Option.isNone_iff_eq_none.mp hfree
      have performs : h.perform (w.calls i) = (.seen w.machine.holder.current, w.machine.holder) := by
        rw [show w.calls i = .look from hworks, hw.free hnone]
        rfl
      have hanswer := hw.answer (.inl hnone) performs
      rw [show { w.machine with lock := none } = w.machine by rw [← hnone]] at hanswer
      exact ⟨_, hanswer⟩
    case entering c =>
      split at hm <;> rename_i hfree <;> cases hm
      have hnone : w.machine.lock = none := Option.isNone_iff_eq_none.mp hfree
      have hanswered : w.answered? (Machine.move { w.machine with lock := some i } i (.holding c))
          i = none := by
        simp only [answered?, Machine.move, goTo_self]
      refine ⟨h, ?_⟩
      simp only [hanswered, Option.toList_none, List.append_nil]
      exact hw.move (.inl hnone) hw.ops ⟨hworks, hw.free hnone⟩ rfl fun hfree => by cases hfree
    case holding c =>
      have was : (w.machine.editors i).holdsLock = true := by rw [hi]; rfl
      obtain ⟨hcall, hnow⟩ := hworks
      cases c with
      | replace model =>
        cases hm
        exact ⟨h, hw.within was rfl ⟨by rw [hcall]; rfl, hnow⟩⟩
      | update edit =>
        simp only [hnow] at hm
        split at hm <;> rename_i hcurrent <;> cases hm
        · exact ⟨h, hw.within was rfl ⟨hcall, hcurrent, hnow⟩⟩
        · refine ⟨h, hw.within was rfl ?_⟩
          show h.perform (w.calls i) = _
          rw [hcall, hnow]
          simp only [perform, update, hcurrent]
      | clear =>
        cases hm
        refine ⟨h, hw.within was rfl ?_⟩
        show h.perform (w.calls i) = _
        rw [hcall, hnow]
        rfl
    case editing model edit =>
      have was : (w.machine.editors i).holdsLock = true := by rw [hi]; rfl
      obtain ⟨hcall, hcurrent, hnow⟩ := hworks
      cases hm
      refine ⟨h, hw.within was rfl ⟨?_, hnow⟩⟩
      rw [hcall]
      simp only [perform, update, hcurrent]
    case installing model =>
      have was : (w.machine.editors i).holdsLock = true := by rw [hi]; rfl
      obtain ⟨performs, hnow⟩ := hworks
      cases hm
      exact ⟨h, hw.within was rfl ⟨performs, by rw [hnow]⟩⟩
    case counting =>
      have was : (w.machine.editors i).holdsLock = true := by rw [hi]; rfl
      obtain ⟨performs, hrevision⟩ := hworks
      cases hm
      refine ⟨h, hw.within was rfl ?_⟩
      show h.perform (w.calls i) = _
      rw [performs, hrevision]
    case leaving a =>
      cases hm
      exact ⟨_, hw.answer (.inr (hheld rfl)) hworks⟩

theorem sound_of_reachable (hw : Reachable Ledger.step (.start initial) w) : ∃ h, w.Sound initial h :=
  hw.induction (P := fun w => ∃ h, w.Sound initial h) ⟨initial, sound_start initial⟩
    fun _ _ _ ⟨_, hu⟩ hstep => hu.step hstep

end Ledger

/-- Nobody waits for ever: as long as a call has not been answered, some thread can go on. -/
theorem Ledger.Sound.exists_step {initial h : Holder M} {w : Ledger M} {i : ThreadId}
    (hw : w.Sound initial h)
    (hi : ∀ last, w.machine.editors i ≠ .outside last) : ∃ j m, w.machine.step (.editor j) = some m := by
  -- whoever has the lock goes on; if nobody has it, then nobody waits for it
  have hholds {j : ThreadId} (hj : (w.machine.editors j).holdsLock = true) :
      ∃ m, w.machine.step (.editor j) = some m := by
    cases hplace : w.machine.editors j with
    | outside | looking | entering =>
      rw [hplace] at hj
      cases hj
    | holding c =>
      cases c with
      | update edit =>
        cases hcurrent : w.machine.holder.current <;>
          exact ⟨_, by simp only [Machine.step, Machine.stepEditor, hplace, hcurrent]; rfl⟩
      | replace | clear => exact ⟨_, by simp only [Machine.step, Machine.stepEditor, hplace]; rfl⟩
    | editing | installing | counting | leaving =>
      exact ⟨_, by simp only [Machine.step, Machine.stepEditor, hplace]; rfl⟩
  cases hlock : w.machine.lock with
  | some j => exact ⟨j, hholds ((hw.lock j).mp hlock)⟩
  | none =>
    refine ⟨i, ?_⟩
    cases hplace : w.machine.editors i with
    | outside last => exact absurd hplace (hi last)
    | looking | entering =>
      exact ⟨_, by
        simp only [Machine.step, Machine.stepEditor, hplace, hlock, Option.isNone_none, if_true]
        rfl⟩
    | _ => exact hholds (by rw [hplace]; rfl)

/-! ### The result -/

/-- A thread that is outside has what it was told, whatever others do, until it asks for something else. -/
theorem Machine.outside_of_run {m n : Machine M} {i : ThreadId} {last : Option (Answer M)}
    (was : m.editors i = .outside last) {ls : List (Machine.Label M)} (hls : ∀ l ∈ ls, ∀ c, l ≠ .call i c)
    (hrun : run Machine.step m ls = some n) : n.editors i = .outside last := by
  refine run_induction (P := fun m : Machine M => m.editors i = .outside last) hrun hls was ?_
  intro m l n hm hl hstep
  cases l with
  | call j c =>
    have hj : i ≠ j := fun hij => hl c (by rw [hij])
    simp only [Machine.step] at hstep
    split at hstep <;> cases hstep
    rw [← hm]
    exact goTo_of_ne m.editors _ hj
  | editor j =>
    have hj : i ≠ j := by
      rintro rfl
      simp only [Machine.step, Machine.stepEditor, hm] at hstep
      cases hstep
    have hothers (m' : Machine M) (hsame : m'.editors = m.editors) (e : Editor M) :
        (m'.move j e).editors i = .outside last := by
      rw [← hm, ← hsame]
      exact goTo_of_ne m'.editors _ hj
    simp only [Machine.step, Machine.stepEditor] at hstep
    split at hstep <;> (try split at hstep) <;> cases hstep <;> exact hothers _ rfl _

/-- What an update comes to, by what the calls before it have left. -/
theorem Sequential.update_of_performs {initial h : Holder M} {ops : List (Operation M)}
    (hops : Sequential initial ops h) {op : Operation M} {edit : M → M}
    (hcall : op.call = .change (.update edit)) (performs : h.perform op.call = (op.answer, op.holder)) :
    (op.answer = .revision none ↔ IsEmptied initial ops) ∧
      (IsEmptied initial ops → op.holder = h) ∧
        (¬ IsEmptied initial ops → ∃ r model, op.answer = .revision (some (r + 1)) ∧
          h = ⟨some model, r⟩ ∧ HasInstalled initial ops r model ∧
          op.holder = ⟨some (edit model), r + 1⟩) := by
  obtain ⟨hinstalled, hempty⟩ := hops.left
  rw [hcall] at performs
  cases hcurrent : h.current with
  | none =>
    simp only [perform, update, hcurrent, Prod.mk.injEq] at performs
    obtain ⟨hanswer, hholder⟩ := performs
    have hemptied : IsEmptied initial ops := hempty.mp hcurrent
    exact ⟨iff_of_true hanswer.symm hemptied, fun _ => hholder.symm, fun hfull => absurd hemptied hfull⟩
  | some model =>
    simp only [perform, update, hcurrent, Prod.mk.injEq] at performs
    obtain ⟨hanswer, hholder⟩ := performs
    have hfull : ¬ IsEmptied initial ops := by
      rw [← hempty, hcurrent]
      simp
    refine ⟨iff_of_false (fun hnone => ?_) hfull, fun hemptied => absurd hemptied hfull, fun _ => ?_⟩
    · rw [← hanswer] at hnone
      cases hnone
    · have hleft : h = ⟨some model, h.revision⟩ := by rw [← hcurrent]
      exact ⟨h.revision, model, hanswer.symm, hleft, hinstalled model hcurrent, hholder.symm⟩

/-- **No update is lost**, however many threads work on a holder and in whatever order they go on.  The
revisions that have been returned are the first one plus 1, 2, …, each of them once as long as they stay
below `2 ^ 64`, behind which they start again.  A replacement counts, and installs its model.  An update
that is told the revision `r + 1` has edited the model that the calls before it have left at the revision
`r`, which the change with that revision has installed, or which is the initial one; it is told nothing
exactly if the holder was empty, and then it changes nothing.  While nobody has the lock, the holder is as
the last call has left it.  What a thread has been told stays what it is, whatever the others do.  And as
long as somebody waits for an answer, somebody can go on. -/
theorem updates_are_not_lost {initial : Holder M} {w : Ledger M}
    (hw : Reachable Ledger.step (.start initial) w) :
    revisions w.ops =
        (List.range' 1 (revisions w.ops).length).map (fun k => initial.revision + UInt64.ofNat k) ∧
      (initial.revision.toNat + (revisions w.ops).length < UInt64.size →
        (revisions w.ops).map (·.toNat) = List.range' (initial.revision.toNat + 1) (revisions w.ops).length ∧
          (revisions w.ops).Nodup) ∧
      (∀ before op after, w.ops = before ++ op :: after →
        (∀ model, op.call = .change (.replace model) →
          ∃ r, op.answer = .revision (some r) ∧ op.holder = ⟨some model, r⟩) ∧
        (∀ edit, op.call = .change (.update edit) →
          (op.answer = .revision none ↔ IsEmptied initial before) ∧
          (IsEmptied initial before → op.holder = latest initial before) ∧
          (¬ IsEmptied initial before → ∃ r model, op.answer = .revision (some (r + 1)) ∧
            latest initial before = ⟨some model, r⟩ ∧ HasInstalled initial before r model ∧
            op.holder = ⟨some (edit model), r + 1⟩)) ∧
        (op.call = .look → op.answer = .seen (latest initial before).current ∧
          op.holder = latest initial before)) ∧
      (w.machine.lock = none → w.machine.holder = latest initial w.ops) ∧
      (∀ i last ls m, w.machine.editors i = .outside last → (∀ l ∈ ls, ∀ c, l ≠ .call i c) →
        run Machine.step w.machine ls = some m → m.editors i = .outside last) ∧
      ∀ i, (∀ last, w.machine.editors i ≠ .outside last) → ∃ j m, w.machine.step (.editor j) = some m := by
  obtain ⟨h, hsound⟩ := Ledger.sound_of_reachable hw
  refine ⟨hsound.ops.revisions_eq.1, hsound.ops.toNat_revisions, fun before op after hops => ?_,
    fun hfree => ?_, ?_, fun i hi => hsound.exists_step hi⟩
  · have hall : Sequential initial (before ++ op :: after) h := by
      rw [← hops]
      exact hsound.ops
    obtain ⟨hbefore, performs⟩ := hall.performs_of_append
    refine ⟨fun model hcall => ?_, fun edit hcall => ?_, fun hcall => ?_⟩
    · rw [hcall] at performs
      obtain ⟨hanswer, hholder⟩ := Prod.mk.inj performs
      exact ⟨_, hanswer.symm, hholder.symm⟩
    · exact hbefore.update_of_performs hcall performs
    · rw [hcall] at performs
      obtain ⟨hanswer, hholder⟩ := Prod.mk.inj performs
      exact ⟨hanswer.symm, hholder.symm⟩
  · rw [hsound.free hfree]
    exact hsound.ops.eq_latest
  · intro i last ls m was hls hrun
    exact Machine.outside_of_run was hls hrun

/-- Two threads want to edit a model that another one is about to install; the later one gets the lock
first. -/
def interleaving : List (Machine.Label Nat) :=
  [.call 0 (.change (.replace 5)), .call 1 (.change (.update (· + 1))), .editor 0, .editor 0,
    .call 2 (.change (.update (· * 2))), .editor 0, .editor 0, .editor 0,
    .editor 2, .editor 2, .editor 2, .editor 2, .call 3 .look, .editor 2, .editor 2, .editor 3,
    .editor 1, .editor 1, .editor 1, .editor 1, .editor 1, .editor 1]

/-- Both edits count, and the second one has edited what the first one has installed; who has looked in
between keeps what was there. -/
theorem updates_are_not_lost_interleaved :
    ∃ w, run Ledger.step (.start {}) interleaving = some w ∧
      0 + (revisions w.ops).length < UInt64.size ∧
      (revisions w.ops).map (·.toNat) = List.range' 1 3 ∧ (revisions w.ops).Nodup ∧
      w.machine.editors 3 = .outside (some (.seen (some 10))) ∧
      ∃ before op, w.ops = before ++ [op] ∧ op.thread = 1 ∧ op.holder = ⟨some (10 + 1), 3⟩ ∧
        ∃ r model, op.answer = .revision (some (r + 1)) ∧ latest {} before = ⟨some model, r⟩ ∧
          HasInstalled {} before r model ∧ op.holder = ⟨some (model + 1), r + 1⟩ := by
  obtain ⟨w, hw, hlength, hlook, before, op, hops, hthread, hcall, hanswer, hholder⟩ :
      ∃ w, run Ledger.step (.start {}) interleaving = some w ∧ (revisions w.ops).length = 3 ∧
        w.machine.editors 3 = .outside (some (.seen (some 10))) ∧
        ∃ before op, w.ops = before ++ [op] ∧ op.thread = 1 ∧ op.call = .change (.update (· + 1)) ∧
          op.answer = .revision (some 3) ∧ op.holder = ⟨some (10 + 1), 3⟩ :=
    ⟨_, rfl, rfl, rfl, [_, _, _], _, rfl, rfl, rfl, rfl, rfl⟩
  have hcount : (0 : UInt64).toNat + (revisions w.ops).length < UInt64.size := by
    rw [hlength]
    decide
  obtain ⟨-, hexact, hall, -⟩ := updates_are_not_lost ⟨interleaving, hw⟩
  obtain ⟨hrange, hnodup⟩ := hexact hcount
  obtain ⟨-, hupdate, -⟩ := hall before op [] hops
  obtain ⟨hnone, -, hcounts⟩ := hupdate (· + 1) hcall
  rw [hlength] at hrange
  have hfull : ¬ IsEmptied {} before := by
    rw [← hnone, hanswer]
    simp
  exact ⟨w, hw, hcount, hrange, hnodup, hlook, before, op, hops, hthread, hholder, hcounts hfull⟩

end SnapStore.Holder
