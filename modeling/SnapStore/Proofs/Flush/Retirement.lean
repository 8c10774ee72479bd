import SnapStore.Proofs.Flush.Steps

namespace SnapStore.Flush

/-!
# After the writer is gone

A caller that stops the writer closes the signal and waits until the thread of the writer has ended.  From
then on every request is refused.  A wait ends well at once, unless the writer has died with a save in hand:
nobody takes it back, and whoever waits for it waits in vain.

* `Writer.holdsSave` — whether the writer has a save in hand.
* `DiesInHand` — the writer dies with a save in hand, somewhere in a run; `inFlight_of_run` says that this is
  the only way in which a save stays in flight that nobody makes.
* `Machine.Retired` — the signal is closed and the writer has ended; this stays so, and nobody touches what
  is in flight.
* `refused_and_idle_after_join` — what callers are told after the writer is gone.
* `in_flight_after_death` — a writer that died with a save in hand.
-/

/-- Whether the writer has something to save after a decision. -/
def Decision.takes : Decision → Bool
  | .flush => true
  | .shutdown pending => pending

/-- Whether the writer has a save in hand. -/
def Writer.holdsSave : Writer → Bool
  | .working d => d.takes
  | _ => false

theorem Writer.holdsSave_of_hasEnded {w : Writer} (h : w.hasEnded = true) : w.holdsSave = false := by
  cases w with
  | stopped | died => rfl
  | _ => cases h

/-- The writer dies with a save in hand, somewhere in a run. -/
def DiesInHand (t : Timing) (m : Machine) (ls : List Machine.Label) : Prop :=
  ∃ before after u, ls = before ++ .death :: after ∧ run (Machine.step t) m before = some u ∧
    u.writer.holdsSave = true

variable {t : Timing} {m m' u : Machine} {l : Machine.Label} {ls : List Machine.Label} {a : Option Action}

theorem diesInHand_cons_iff (h : m.step t l = some m') :
    DiesInHand t m (l :: ls) ↔ l = .death ∧ m.writer.holdsSave = true ∨ DiesInHand t m' ls := by
  constructor
  · rintro ⟨before, after, u, heq, hrun, hholds⟩
    cases before with
    | nil =>
      cases heq
      cases hrun
      exact .inl ⟨rfl, hholds⟩
    | cons k before =>
      rw [List.cons_append, List.cons.injEq] at heq
      obtain ⟨rfl, rfl⟩ := heq
      rw [run_cons, h, Option.bind_some] at hrun
      exact .inr ⟨before, after, u, rfl, hrun, hholds⟩
  · rintro (⟨rfl, hholds⟩ | ⟨before, after, u, rfl, hrun, hholds⟩)
    · exact ⟨[], ls, m, rfl, rfl, hholds⟩
    · exact ⟨l :: before, after, u, rfl, by rw [run_cons, h, Option.bind_some, hrun], hholds⟩

/-! ### What is in flight -/

/-- What is in flight is what the writer has in hand, until the writer dies with it. -/
theorem Does.inFlight (h : Does t m m' l a) (hm : m.signal.inFlight = m.writer.holdsSave)
    (halive : ¬ (l = .death ∧ m.writer.holdsSave = true)) :
    m'.signal.inFlight = m'.writer.holdsSave := by
  cases h with
  | rest signal writer => rw [signal, writer, hm]
  | wakes till was signal writer =>
    rw [signal, writer, hm, was]
    rfl
  | dies label was signal writer =>
    rw [signal, writer, hm]
    exact Bool.of_not_eq_true fun hholds => halive ⟨label, hholds⟩
  | request reading signal writer =>
    rw [signal, writer, Signal.request_inFlight, hm]
    split <;> cases m.writer <;> rfl
  | cancel signal writer =>
    rw [signal, writer]
    exact hm
  | close signal writer =>
    rw [signal, writer]
    refine Eq.trans hm ?_
    cases m.writer <;> rfl
  | looks now was look =>
    rw [was] at hm
    rw [Writer.look] at look
    cases hd : m.signal.decide? t now with
    | none =>
      rw [hd, Prod.mk.injEq] at look
      rw [look.1, look.2]
      exact hm
    | some r =>
      -- it takes what is pending, whether it is to save or to stop
      obtain ⟨d, s⟩ := r
      rw [hd, Prod.mk.injEq] at look
      obtain ⟨rfl, ⟨-, rfl⟩ | ⟨-, rfl, p, hp, -⟩⟩ := Signal.decide?_eq_some_iff.mp hd
      · rw [look.1, look.2]
        rfl
      · rw [look.1, look.2, hp]
        rfl
  | finishes d was signal writer =>
    rw [signal, writer]
    cases d <;> rfl

/-- Once the thread of the writer has ended, no step moves the writer or touches what is in flight. -/
theorem Does.of_hasEnded (h : Does t m m' l a) (hm : m.writer.hasEnded = true) :
    m'.writer = m.writer ∧ m'.signal.inFlight = m.signal.inFlight := by
  have hrouse : m.writer.rouse = m.writer := by
    cases hw : m.writer <;> rw [hw] at hm <;> first | rfl | cases hm
  cases h with
  | rest signal writer => exact ⟨writer, by rw [signal]⟩
  | wakes _ was | dies _ was | looks _ was | finishes _ was =>
    rw [was] at hm
    cases hm
  | request reading signal writer =>
    rw [hrouse, ite_self] at writer
    exact ⟨writer, by rw [signal, Signal.request_inFlight]⟩
  | cancel signal writer => exact ⟨writer, by rw [signal]; rfl⟩
  | close signal writer => exact ⟨writer.trans hrouse, by rw [signal]; rfl⟩

/-- The thread of a writer has ended for good, and nobody touches what is in flight any more. -/
theorem ended_of_reachable (hm : m.writer.hasEnded = true) (h : Reachable (Machine.step t) m u) :
    u.writer.hasEnded = true ∧ u.signal.inFlight = m.signal.inFlight := by
  refine h.induction (P := fun u => u.writer.hasEnded = true ∧ u.signal.inFlight = m.signal.inFlight)
    ⟨hm, rfl⟩ ?_
  rintro u l v ⟨hu, hsame⟩ hs
  obtain ⟨hwriter, hflight⟩ := (does_of_step hs).of_hasEnded hu
  exact ⟨by rw [hwriter]; exact hu, hflight.trans hsame⟩

/-- A save stays in flight that nobody makes, when the writer dies with it. -/
theorem inFlight_of_death (h : m.step t .death = some m') (hm : m.signal.inFlight = m.writer.holdsSave)
    (hholds : m.writer.holdsSave = true) : m'.writer.hasEnded = true ∧ m'.signal.inFlight = true := by
  simp only [Machine.step] at h
  split at h <;> cases h
  exact ⟨rfl, hm.trans hholds⟩

/-- **Saves that nobody makes.** When the thread of the writer has ended, a save is in flight exactly if the
writer has died with it. -/
theorem inFlight_of_run (h : run (Machine.step t) m ls = some u)
    (hm : m.signal.inFlight = m.writer.holdsSave) (hended : u.writer.hasEnded = true) :
    u.signal.inFlight = true ↔ DiesInHand t m ls := by
  induction ls generalizing m with
  | nil =>
    cases h
    refine iff_of_false (fun hflight => ?_) ?_
    · rw [hm, Writer.holdsSave_of_hasEnded hended] at hflight
      cases hflight
    · rintro ⟨before, after, u, heq, -⟩
      cases before <;> cases heq
  | cons l ls ih =>
    rw [run_cons, Option.bind_eq_some_iff] at h
    obtain ⟨v, hv, hrest⟩ := h
    rw [diesInHand_cons_iff hv]
    by_cases hdeath : l = .death ∧ m.writer.holdsSave = true
    · obtain ⟨rfl, hholds⟩ := hdeath
      obtain ⟨hdied, hflight⟩ := inFlight_of_death hv hm hholds
      exact iff_of_true ((ended_of_reachable hdied ⟨ls, hrest⟩).2.trans hflight) (.inl ⟨rfl, hholds⟩)
    · rw [ih hrest ((does_of_step hv).inFlight hm hdeath), or_iff_right hdeath]

/-! ### A writer that is gone -/

/-- The signal is closed, and the thread of the writer has ended. -/
structure Machine.Retired (m : Machine) : Prop where
  closed : m.signal.closed = true
  ended : m.writer.hasEnded = true

/-- **Gone for good.** Nobody opens the signal again, and nobody touches what is in flight. -/
theorem Machine.Retired.of_reachable (hm : m.Retired) (h : Reachable (Machine.step t) m u) :
    u.Retired ∧ u.signal.inFlight = m.signal.inFlight := by
  obtain ⟨hended, hflight⟩ := ended_of_reachable hm.ended h
  exact ⟨⟨h.induction hm.closed fun _ _ _ hu hs => (does_of_step hs).closed hu, hended⟩, hflight⟩

/-- A closed signal is idle unless a save is in flight. -/
theorem Signal.isIdle_of_closed {s : Signal} (h : s.closed = true) : s.isIdle = ! s.inFlight := by
  simp [isIdle, h]

/-- Callers that wait for the writer have closed the signal. -/
theorem closed_of_joining {s : Signal} {i : ThreadId} (h : Reachable (Machine.step t) { signal := s } m)
    (hi : m.callers i = .joining) : m.signal.closed = true := by
  refine h.induction (P := fun m => ∀ i, m.callers i = .joining → m.signal.closed = true)
    (fun i hi => by cases hi) ?_ i hi
  intro u l v hu hs j hj
  rcases joining_of_step hs hj with hbefore | hclosed
  · exact (does_of_step hs).closed (hu j hbefore)
  · exact hclosed

/-- A caller that is told that the writer is gone leaves everything else as it is. -/
theorem retired_of_join {i : ThreadId} {now : Nat} (hclosed : m.signal.closed = true)
    (hi : m.callers i = .joining) (h : m.step t (.caller i now) = some m') :
    m'.Retired ∧ m.writer.hasEnded = true ∧ m'.signal.inFlight = m.signal.inFlight := by
  simp only [Machine.step, Machine.stepCaller, hi] at h
  split at h
  · rename_i hended
    cases h
    exact ⟨⟨hclosed, hended⟩, hended, rfl⟩
  · cases h

/-! ### What callers are told -/

@[simp] theorem Machine.move_move (m : Machine) (i : ThreadId) (q q' : Caller) :
    (m.move i q).move i q' = m.move i q' := by
  simp only [move, goTo_goTo]

/-- A closed signal refuses a request. -/
theorem step_marking {j : ThreadId} {reading now : Nat} (hclosed : m.signal.closed = true)
    (hj : m.callers j = .marking reading) :
    m.step t (.caller j now) = some (m.move j (.done (.requested .closed))) := by
  simp only [Machine.step, Machine.stepCaller, hj, Signal.request_of_closed hclosed, if_true]

/-- A caller that finds the signal idle is told so, however long it would have waited. -/
theorem step_checking {j : ThreadId} {deadline now : Nat} (hidle : m.signal.isIdle = true)
    (hj : m.callers j = .checking deadline) :
    m.step t (.caller j now) = some (m.move j (.done (.idle true))) := by
  simp only [Machine.step, Machine.stepCaller, hj, hidle, if_true]

/-- A request at a closed signal, from the beginning to the end. -/
theorem run_request {j : ThreadId} {last : Option Answer} (hclosed : m.signal.closed = true)
    (hj : m.callers j = .outside last) (now now' : Nat) :
    run (Machine.step t) m [.call j .request, .caller j now, .caller j now'] =
      some (m.move j (.done (.requested .closed))) := by
  have hcall : m.step t (.call j .request) = some (m.move j .requesting) := by
    simp only [Machine.step, hj]
    rfl
  have hread : (m.move j .requesting).step t (.caller j now) = some (m.move j (.marking now)) := by
    simp only [Machine.step, Machine.stepCaller, Machine.callers_move_self, Machine.move_move]
  have hrefused : (m.move j (.marking now)).step t (.caller j now') =
      some ((m.move j (.marking now)).move j (.done (.requested .closed))) :=
    step_marking hclosed (Machine.callers_move_self ..)
  rw [run_cons, hcall, Option.bind_some, run_cons, hread, Option.bind_some, run_singleton, hrefused,
    Machine.move_move]

/-- A caller that begins to wait looks at the signal, with a deadline. -/
theorem run_awaiting {j : ThreadId} {last : Option Answer} (hj : m.callers j = .outside last)
    (timeout now : Nat) :
    run (Machine.step t) m [.call j (.waitIdle timeout), .caller j now] =
      some (m.move j (.checking (now + timeout))) := by
  have hcall : m.step t (.call j (.waitIdle timeout)) = some (m.move j (.awaiting timeout)) := by
    simp only [Machine.step, hj]
    rfl
  rw [run_cons, hcall, Option.bind_some, run_singleton]
  simp only [Machine.step, Machine.stepCaller, Machine.callers_move_self, Machine.move_move]

/-- A wait at an idle signal, from the beginning to the end. -/
theorem run_waitIdle {j : ThreadId} {last : Option Answer} (hidle : m.signal.isIdle = true)
    (hj : m.callers j = .outside last) (timeout now now' : Nat) :
    run (Machine.step t) m [.call j (.waitIdle timeout), .caller j now, .caller j now'] =
      some (m.move j (.done (.idle true))) := by
  have htold : (m.move j (.checking (now + timeout))).step t (.caller j now') =
      some ((m.move j (.checking (now + timeout))).move j (.done (.idle true))) :=
    step_checking hidle (Machine.callers_move_self ..)
  show run (Machine.step t) m ([.call j (.waitIdle timeout), .caller j now] ++ [.caller j now']) = _
  rw [run_append, run_awaiting hj, Option.bind_some, run_singleton, htold, Machine.move_move]

/-- A wait at a signal that is not idle, when the time is up. -/
theorem run_waitIdle_of_busy {j : ThreadId} {last : Option Answer} {timeout now now' : Nat}
    (hbusy : m.signal.isIdle = false) (hj : m.callers j = .outside last) (hlate : now + timeout ≤ now') :
    run (Machine.step t) m [.call j (.waitIdle timeout), .caller j now, .caller j now'] =
      some (m.move j (.done (.idle false))) := by
  have hsignal : (m.move j (.checking (now + timeout))).signal.isIdle = false := hbusy
  show run (Machine.step t) m ([.call j (.waitIdle timeout), .caller j now] ++ [.caller j now']) = _
  rw [run_append, run_awaiting hj, Option.bind_some, run_singleton]
  simp only [Machine.step, Machine.stepCaller, Machine.callers_move_self, hsignal, hlate, if_true,
    Bool.false_eq_true, if_false, Machine.move_move]

/-- Nobody is told that the signal is idle while it is not. -/
theorem ne_idle_of_step {j : ThreadId} {deadline now : Nat} (hbusy : m.signal.isIdle = false)
    (hj : m.callers j = .checking deadline) (h : m.step t (.caller j now) = some m') :
    m'.callers j ≠ .done (.idle true) := by
  simp only [Machine.step, Machine.stepCaller, hj, hbusy, Bool.false_eq_true, if_false] at h
  split at h <;> cases h <;> rw [Machine.callers_move_self] <;> intro hdone <;> cases hdone

/-- **After the writer is gone.** Whatever has been done with a signal before, as long as nothing was in
flight: callers and the writer go on in any order, and the writer may die anywhere.  When a caller that
stops the writer has come back, then the writer takes no step any more, and every request is refused, also
one that was under way.  If the writer has not died with a save in hand, then whoever waits is told at once
that the signal is idle.  If it has, then nobody is ever told so, and whoever waits is told that it is not
when the time is up. -/
theorem refused_and_idle_after_join {s : Signal} (hs : s.inFlight = false) {i : ThreadId} {now : Nat}
    (hrun : run (Machine.step t) { signal := s } ls = some m) (hi : m.callers i = .joining)
    (hjoin : m.step t (.caller i now) = some m') (hu : Reachable (Machine.step t) m' u) :
    (∀ now, u.step t (.writer now) = none) ∧
    (∀ j reading now, u.callers j = .marking reading →
      u.step t (.caller j now) = some (u.move j (.done (.requested .closed)))) ∧
    (∀ j last now now', u.callers j = .outside last →
      run (Machine.step t) u [.call j .request, .caller j now, .caller j now'] =
        some (u.move j (.done (.requested .closed)))) ∧
    (¬ DiesInHand t { signal := s } ls →
      (∀ j deadline now, u.callers j = .checking deadline →
        u.step t (.caller j now) = some (u.move j (.done (.idle true)))) ∧
      ∀ j last timeout now now', u.callers j = .outside last →
        run (Machine.step t) u [.call j (.waitIdle timeout), .caller j now, .caller j now'] =
          some (u.move j (.done (.idle true)))) ∧
    (DiesInHand t { signal := s } ls →
      (∀ j deadline now v, u.callers j = .checking deadline → u.step t (.caller j now) = some v →
        v.callers j ≠ .done (.idle true)) ∧
      ∀ j last timeout now now', u.callers j = .outside last → now + timeout ≤ now' →
        run (Machine.step t) u [.call j (.waitIdle timeout), .caller j now, .caller j now'] =
          some (u.move j (.done (.idle false)))) := by
  have hclosed := closed_of_joining ⟨ls, hrun⟩ hi
  obtain ⟨hretired, hended, hflight⟩ := retired_of_join hclosed hi hjoin
  obtain ⟨hgone, hsame⟩ := hretired.of_reachable hu
  -- the signal is idle exactly if the writer has not died with a save in hand
  have hinFlight := inFlight_of_run hrun (by rw [hs]; rfl) hended
  have hidle := Signal.isIdle_of_closed hgone.closed
  rw [hsame, hflight] at hidle
  refine ⟨fun now => ?_, fun j reading now hj => step_marking hgone.closed hj,
    fun j last now now' hj => run_request hgone.closed hj now now', fun halive => ?_, fun hdies => ?_⟩
  · simp only [Machine.step, Machine.stepWriter]
    cases hw : u.writer <;> have hend := hgone.ended <;> rw [hw] at hend <;> first | rfl | cases hend
  · have hfree : u.signal.isIdle = true := by
      rw [hidle, Bool.not_eq_true', ← Bool.not_eq_true, hinFlight]
      exact halive
    exact ⟨fun j deadline now hj => step_checking hfree hj,
      fun j last timeout now now' hj => run_waitIdle hfree hj timeout now now'⟩
  · have hbusy : u.signal.isIdle = false := by rw [hidle, hinFlight.mpr hdies]; rfl
    exact ⟨fun j deadline now v hj hv => ne_idle_of_step hbusy hj hv,
      fun j last timeout now now' hj hlate => run_waitIdle_of_busy hbusy hj hlate⟩

/-- A save is made, another one is requested, and the writer dies in its sleep; then a caller closes the
signal. -/
def asleepRun : List Machine.Label :=
  [.call 0 .request, .caller 0 0, .caller 0 0, .writer 100, .writer 100, .call 0 .request, .caller 0 101,
    .caller 0 101, .writer 101, .death, .call 1 .join, .caller 1 102]

/-- A writer that dies while a save is pending has none in hand: another caller that waits is told at once
that the signal is idle. -/
theorem refused_and_idle_after_join_asleep :
    ∃ m m', run (Machine.step ⟨100, 100⟩) {} asleepRun = some m ∧ m.callers 1 = .joining ∧
      m.step ⟨100, 100⟩ (.caller 1 102) = some m' ∧ m.signal.pending.isSome = true ∧
      ¬ DiesInHand ⟨100, 100⟩ {} asleepRun ∧
      (run (Machine.step ⟨100, 100⟩) m' [.call 1 .request, .caller 1 103, .caller 1 103]).map (·.callers 1) =
        some (.done (.requested .closed)) ∧
      ∀ timeout, (run (Machine.step ⟨100, 100⟩) m'
          [.call 1 (.waitIdle timeout), .caller 1 103, .caller 1 103]).map (·.callers 1) =
        some (.done (.idle true)) := by
  have hfacts : (run (Machine.step ⟨100, 100⟩) {} asleepRun).map
      (fun m => (m.callers 1, m.signal, m.writer)) =
        some (.joining, { pending := some ⟨101, 101⟩, inFlight := false, closed := true }, .died) := by
    decide
  obtain ⟨m, hrun, hm⟩ := Option.map_eq_some_iff.mp hfacts
  simp only [Prod.mk.injEq] at hm
  obtain ⟨hi, hsignal, hwriter⟩ := hm
  have hjoin : m.step ⟨100, 100⟩ (.caller 1 102) = some (m.move 1 (.done (.joined true))) := by
    simp [Machine.step, Machine.stepCaller, hi, hwriter, Writer.hasEnded]
  have halive : ¬ DiesInHand ⟨100, 100⟩ {} asleepRun := by
    rw [← inFlight_of_run hrun rfl (by rw [hwriter]; rfl), hsignal]
    simp
  obtain ⟨-, -, hrefused, hidle, -⟩ := refused_and_idle_after_join rfl hrun hi hjoin (.refl _)
  have houtside : (m.move 1 (.done (.joined true))).callers 1 = .outside (some (.joined true)) :=
    Machine.callers_move_self ..
  refine ⟨m, _, hrun, hi, hjoin, by rw [hsignal]; rfl, halive, ?_, fun timeout => ?_⟩
  · rw [hrefused 1 _ 103 103 houtside, Option.map_some, Machine.callers_move_self]
  · rw [(hidle halive).2 1 _ timeout 103 103 houtside, Option.map_some, Machine.callers_move_self]

/-- A save is requested, the writer sets out to make it and dies, and a caller stops the writer. -/
def deathRun : List Machine.Label :=
  [.call 0 .request, .caller 0 0, .caller 0 0, .writer 0, .death, .call 0 .join, .caller 0 0, .caller 0 0]

/-- **A save that stays in flight.** The caller is told that the writer has died, so that no thread is left
that could make a save.  Its requests are refused, but however long it waits, it is told in the end that the
signal is not idle. -/
theorem in_flight_after_death :
    ∃ m, run (Machine.step {}) {} deathRun = some m ∧ m.callers 0 = .done (.joined true) ∧
      (run (Machine.step {}) m [.call 0 .request, .caller 0 1, .caller 0 1]).map (·.callers 0) =
        some (.done (.requested .closed)) ∧
      ∀ timeout, (run (Machine.step {}) m
          [.call 0 (.waitIdle timeout), .caller 0 1, .caller 0 (1 + timeout)]).map (·.callers 0) =
        some (.done (.idle false)) := by
  have hfacts : (run (Machine.step {}) {} deathRun).map (fun m => (m.callers 0, m.signal)) =
      some (.done (.joined true), { pending := none, inFlight := true, closed := true }) := by decide
  obtain ⟨m, hrun, hm⟩ := Option.map_eq_some_iff.mp hfacts
  obtain ⟨hi, hsignal⟩ := Prod.mk.inj hm
  refine ⟨m, hrun, hi, ?_, fun timeout => ?_⟩
  · rw [run_request (by rw [hsignal]) hi, Option.map_some, Machine.callers_move_self]
  · rw [run_waitIdle_of_busy (by rw [hsignal]; rfl) hi (Nat.le_refl _), Option.map_some,
      Machine.callers_move_self]

end SnapStore.Flush
