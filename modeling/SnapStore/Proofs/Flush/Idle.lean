import SnapStore.Proofs.Flush.Watch

namespace SnapStore.Flush

/-!
# What it means that nothing is left to wait for

A caller that waits is told that the signal is idle.  Then nothing more comes of the requests that were
accepted before it began to wait, with one exception: a signal that is closed counts as idle although
a save is still pending, as long as the writer has not looked at it since.

* `settled_iff_of_idle` — that exception is the only one.
* `idle_before_shutdown` — and it occurs.
-/

variable {t : Timing} {w v : Watch} {i : ThreadId} {now deadline : Nat}

/-- A wait that ends well has found the signal idle, and leaves it and the ledger alone. -/
theorem isIdle_of_step (hcheck : w.machine.callers i = .checking deadline)
    (hstep : w.step t (.caller i now) = some v)
    (hidle : v.machine.callers i = .done (.idle true)) :
    w.machine.signal.isIdle = true ∧ v.machine.signal = w.machine.signal ∧
      v.machine.writer = w.machine.writer ∧ v.ledger = w.ledger := by
  obtain ⟨m, hm, rfl⟩ := Option.map_eq_some_iff.mp hstep
  have hnote : w.note t (.caller i now) = w.ledger := by simp only [Watch.note, hcheck]
  replace hm : w.machine.stepCaller i now = some m := hm
  simp only [Machine.stepCaller, hcheck] at hm
  split at hm
  · rename_i hsignal
    cases hm
    exact ⟨hsignal, rfl, rfl, hnote⟩
  · -- the other answers are different ones
    split at hm <;> cases hm <;> simp [Machine.move, Caller.done] at hidle

/-- A writer with nothing in hand that has left something behind will look at the signal again, unless
it has died. -/
theorem attends_of_pending (hw : w.Valid) (halive : w.machine.writer ≠ .died)
    (hpending : w.machine.signal.pending.isSome = true) (hfree : w.machine.signal.inFlight = false) :
    w.machine.writer.attends = true := by
  have hstays : w.machine.writer.isLeaving ≠ true := by
    intro hleft
    rw [(hw.leaving hleft).2] at hpending
    cases hpending
  cases hwriter : w.machine.writer with
  | ready | asleep => rfl
  | died => exact absurd hwriter halive
  | stopped => exact absurd (by rw [hwriter]; rfl) hstays
  | working d =>
    cases d with
    | flush =>
      have := hw.busy hwriter
      rw [hfree] at this
      cases this
    | shutdown b => exact absurd (by rw [hwriter]; rfl) hstays

/-- A writer that looks at a closed signal takes what is pending. -/
theorem exists_taken (hready : w.machine.writer = .ready) (hclosed : w.machine.signal.closed = true)
    {k : Nat} (hk : w.ledger[k]? = some .waiting) :
    ∃ u, w.step t (.writer 0) = some u ∧ u.ledger[k]? = some .taken := by
  obtain ⟨s', hd⟩ : ∃ s', w.machine.signal.decide? t 0 =
      some (.shutdown w.machine.signal.pending.isSome, s') :=
    ⟨_, Signal.decide?_eq_some_iff.mpr ⟨rfl, .inl ⟨hclosed, rfl⟩⟩⟩
  refine ⟨⟨{ w.machine with
    signal := s', writer := .working (.shutdown w.machine.signal.pending.isSome) },
    w.ledger.take, w.since⟩, ?_, ?_⟩
  · simp only [Watch.step, Machine.step, Machine.stepWriter, Writer.look, hready, hd, Watch.note,
      Watch.noteSince, Option.isSome_some, if_true, Option.map_some]
  · show (w.ledger.map Fate.take)[k]? = some .taken
    rw [List.getElem?_map, hk]
    rfl

/-- **A wait that ends well.** When a caller is told that the signal is idle, every request that was
accepted before it began to wait has been dropped or is done with for good, unless the signal is closed
and such a request is still pending.  In that case the writer, if it is alive, can still take it. -/
theorem settled_iff_of_idle (hw : Reachable (Watch.step t) {} w)
    (hcheck : w.machine.callers i = .checking deadline) (hstep : w.step t (.caller i now) = some v)
    (hidle : v.machine.callers i = .done (.idle true)) :
    ((∀ k < w.since i, ∀ u, Reachable (Watch.step t) v u → u.ledger.Settled k) ↔
        ¬ (v.machine.signal.closed = true ∧ ∃ k < w.since i, v.ledger[k]? = some .waiting)) ∧
      (v.machine.signal.closed = true → v.machine.writer ≠ .died →
        ∀ k < w.since i, v.ledger[k]? = some .waiting →
          ∃ u, Reachable (Watch.step t) v u ∧ u.ledger[k]? = some .taken) := by
  have hvalid := Watch.valid_of_reachable hw
  have hv := hvalid.step hstep
  obtain ⟨hsignal, hs, hwriter, hl⟩ := isIdle_of_step hcheck hstep hidle
  refine ⟨⟨?_, ?_⟩, ?_⟩
  · -- a request that is still waiting is not settled
    rintro hsettled ⟨-, k, hk, hwaiting⟩
    obtain ⟨f, hf, hdone⟩ := hsettled k hk v (.refl v)
    rw [hwaiting] at hf
    cases hf
    cases hdone
  · -- any other request is settled already, and stays so
    intro hnone k hk u hu
    refine Watch.settled_of_reachable hu ?_
    have hlt : k < w.ledger.length := Nat.lt_of_lt_of_le hk (hvalid.counted i)
    refine ⟨w.ledger[k], by rw [hl, List.getElem?_eq_getElem hlt], ?_⟩
    rcases hvalid.fits.of_isIdle hsignal (List.getElem_mem hlt) with hdone | ⟨hwaiting, hclosed⟩
    · exact hdone
    · refine absurd ⟨by rw [hs]; exact hclosed, k, hk, ?_⟩ hnone
      rw [hl, List.getElem?_eq_getElem hlt, hwaiting]
  · intro hclosed halive k hk hwaiting
    have hpending : v.machine.signal.pending.isSome = true :=
      hv.fits.waiting_iff.mp (List.mem_of_getElem? hwaiting)
    have hfree : v.machine.signal.inFlight = false := by
      simp only [Signal.isIdle, Bool.and_eq_true, Bool.not_eq_true'] at hsignal
      rw [hs]
      exact hsignal.2
    -- the writer is about to look at the signal, or asleep and wakes up first
    cases hwriter : v.machine.writer with
    | ready =>
      obtain ⟨u, hu, hk⟩ := exists_taken (t := t) hwriter hclosed hwaiting
      exact ⟨u, (Reachable.refl v).snoc hu, hk⟩
    | asleep till =>
      have hwake : v.step t .wakeWriter =
          some { v with machine := { v.machine with writer := .ready } } := by
        simp only [Watch.step, Machine.step, hwriter, Option.map_some]
        rfl
      obtain ⟨u, hu, hk⟩ := exists_taken (t := t)
        (w := { v with machine := { v.machine with writer := .ready } })
        rfl hclosed hwaiting
      exact ⟨u, ((Reachable.refl v).snoc hwake).snoc hu, hk⟩
    | working | stopped | died =>
      have := attends_of_pending hv halive hpending hfree
      rw [hwriter] at this
      cases this

/-- A request is made, the writer takes it and is done with it, and then somebody begins to wait. -/
def flushedRun : List Machine.Label :=
  [.call 0 .request, .caller 0 0, .caller 0 0, .writer 0, .writer 0, .call 1 (.waitIdle 5), .caller 1 0]

/-- Nothing comes of that request any more. -/
theorem settled_iff_of_idle_flushed :
    ∃ w v, run (Watch.step {}) {} flushedRun = some w ∧ w.step {} (.caller 1 0) = some v ∧
      w.since 1 = 1 ∧ ∀ u, Reachable (Watch.step {}) v u → u.ledger.Settled 0 := by
  have hrun : (run (Watch.step {}) {} flushedRun).map (fun w => (w.machine.callers 1, w.since 1)) =
      some (.checking 5, 1) := by decide
  have hlast : (run (Watch.step {}) {} (flushedRun ++ [.caller 1 0])).map
      (fun v => (v.machine.callers 1, v.machine.signal.closed)) = some (.done (.idle true), false) := by
    decide
  obtain ⟨w, hw, hfacts⟩ := Option.map_eq_some_iff.mp hrun
  obtain ⟨hcheck, hsince⟩ := Prod.mk.inj hfacts
  rw [run_append, hw, Option.bind_some, run_singleton] at hlast
  obtain ⟨v, hstep, hfacts⟩ := Option.map_eq_some_iff.mp hlast
  obtain ⟨hidle, hclosed⟩ := Prod.mk.inj hfacts
  refine ⟨w, v, hw, hstep, hsince, ?_⟩
  refine (settled_iff_of_idle ⟨_, hw⟩ hcheck hstep hidle).1.mpr ?_ 0 (by omega)
  rintro ⟨h, -⟩
  rw [hclosed] at h
  cases h

/-- A request is made and the signal is closed before the writer is awake; then somebody waits. -/
def closedRun : List Machine.Label :=
  [.writer 0, .call 0 .request, .caller 0 0, .caller 0 0, .call 0 .close, .caller 0 0,
    .call 0 (.waitIdle 0), .caller 0 0, .caller 0 0]

/-- **A wait that ends too soon.** The wait ends well although the request that was accepted before it is
still waiting, and after that the writer takes it. -/
theorem idle_before_shutdown :
    (run (Watch.step ⟨60000, 60000⟩) {} closedRun).map
        (fun v => (v.machine.callers 0, v.since 0, v.ledger)) =
      some (.done (.idle true), 1, [.waiting]) ∧
    (run (Watch.step ⟨60000, 60000⟩) {} (closedRun ++ [.writer 0])).map
        (fun u => (u.machine.writer, u.ledger)) =
      some (.working (.shutdown true), [.taken]) := by
  decide

end SnapStore.Flush
