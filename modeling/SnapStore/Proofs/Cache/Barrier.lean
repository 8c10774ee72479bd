import SnapStore.Proofs.Cache.Requests

namespace SnapStore.Cache

/-!
# What a shutdown promises

A caller that shuts a cache down takes the handle of the writer, closes the signal and waits for the writer
to stop.  A caller that finds the handle taken does not wait.

* `Machine.Retired` — no request is accepted any more, and the writer will not make another save.  Every step
  keeps this.
* `Journal.Barrier` — what a caller can count on when a shutdown has returned.
* `barrier_of_shutdown` — it can count on it if it has waited, and otherwise exactly if the cache has retired
  by then.
* `shutdown_overtaken` — it may not have.
-/

variable {σ M : Type}

/-! ### Retirement -/

/-- Whether the writer has decided to stop. -/
def Writer.isStopping : Writer M → Bool
  | .saving (.shutdown _) _ | .complaining (.shutdown _) _ | .finishing (.shutdown _) | .stopped => true
  | _ => false

/-- Once the writer has decided to stop, nothing is pending any more. -/
def Machine.Stops (m : Machine σ M) : Prop :=
  m.writer.isStopping = true → m.shared.signal.closed = true ∧ m.shared.signal.pending = none

/-- No request is accepted any more, and the writer will not make another save. -/
structure Machine.Retired (c : Setup σ M) (m : Machine σ M) : Prop where
  closed : m.shared.signal.closed = true
  rest : m.activity .writer = .rest
  pending : m.shared.signal.pending = none ∨ c.flushOnShutdown = false

section Steps

variable {c : Setup σ M} {m m' : Machine σ M} {e : Option (Event M)}

/-- **Closed for good.** No step opens the signal again, and nothing gets pending while it is closed. -/
theorem Note.closed (note : Note c m m' e) (h : m.shared.signal.closed = true) :
    m'.shared.signal.closed = true ∧
      (m.shared.signal.pending = none → m'.shared.signal.pending = none) ∧
        ∀ out, e = some (.requested out) → out = .closed := by
  cases note with
  | still signal writer | complain d e was signal now | finish d was signal now =>
    rw [signal]
    exact ⟨h, id, by simp⟩
  | leave d result was signal now =>
    rw [signal]
    exact ⟨h, id, by simp⟩
  | drop signal writer =>
    rw [signal]
    exact ⟨h, fun _ => rfl, by simp⟩
  | close signal writer =>
    rw [signal]
    exact ⟨rfl, id, by simp⟩
  | request reading signal writer =>
    rw [signal, Flush.Signal.request_of_closed h]
    refine ⟨h, id, fun out hout => ?_⟩
    cases hout
    rfl
  | decide o d was signal now =>
    rw [(Flush.Signal.decide?_eq_some_iff.mp signal).1]
    exact ⟨h, fun _ => rfl, by simp⟩
  | save o d p p' was now step =>
    rw [Save.signal_eq step]
    refine ⟨h, id, fun out hout => ?_⟩
    have := Save.isEffort_of_event? hout
    cases this

/-- The writer decides to stop when the signal is closed, and takes what is pending. -/
theorem Note.isStopping (note : Note c m m' e) (h : m'.writer.isStopping = true) :
    m.writer.isStopping = true ∨ m'.shared.signal.closed = true ∧ m'.shared.signal.pending = none := by
  cases note with
  | still signal writer | request reading signal writer | drop signal writer | close signal writer =>
    exact .inl (by rw [← writer, h])
  | decide o d was signal now =>
    obtain ⟨hsignal, ⟨hclosed, -⟩ | ⟨-, rfl, -⟩⟩ := Flush.Signal.decide?_eq_some_iff.mp signal
    · exact .inr (by rw [hsignal]; exact ⟨hclosed, rfl⟩)
    · rw [now] at h
      cases h
  | save o d p p' was now step | complain d e was signal now | finish d was signal now =>
    rw [now] at h
    rw [was]
    cases d with
    | flush => cases h
    | shutdown pending => exact .inl rfl
  | leave d result was signal now =>
    rw [was]
    cases d with
    | flush => rcases now with now | ⟨e, now⟩ <;> rw [now] at h <;> cases h
    | shutdown pending => exact .inl rfl

theorem Note.stops (note : Note c m m' e) (h : m.Stops) : m'.Stops := by
  intro hstopping
  rcases note.isStopping hstopping with hbefore | hnow
  · obtain ⟨hclosed, hpending⟩ := h hbefore
    exact ⟨(note.closed hclosed).1, (note.closed hclosed).2.1 hpending⟩
  · exact hnow

/-- A writer that decides to stop without making a save, or goes on without one, makes none. -/
theorem Note.rest (note : Note c m m' e) (h : m.Retired c) :
    m'.activity .writer = .rest ∧ ∀ a, e = some a → a.isEffort = false := by
  have hrest := h.rest
  cases note with
  | still signal writer | close signal writer =>
    rw [Machine.activity, writer]
    exact ⟨hrest, by simp⟩
  | request reading signal writer | drop signal writer =>
    rw [Machine.activity, writer]
    refine ⟨hrest, fun a ha => ?_⟩
    cases ha
    rfl
  | decide o d was signal now =>
    refine ⟨?_, fun a ha => by cases ha; rfl⟩
    obtain ⟨-, ⟨-, rfl⟩ | ⟨hopen, -⟩⟩ := Flush.Signal.decide?_eq_some_iff.mp signal
    · have hnone : (m.shared.signal.pending.isSome && c.flushOnShutdown) = false := by
        rcases h.pending with hpending | hflush
        · rw [hpending]
          rfl
        · rw [hflush, Bool.and_false]
      rw [Machine.activity, now, Writer.decided, hnone]
      rfl
    · rw [h.closed] at hopen
      cases hopen
  | save o d p p' was now step =>
    rw [Machine.activity, was] at hrest
    cases hrest
  | leave d result was signal now =>
    rw [Machine.activity, was] at hrest
    cases hrest
  | complain d e was signal now =>
    rw [Machine.activity, now]
    exact ⟨rfl, by simp⟩
  | finish d was signal now =>
    rw [Machine.activity, now]
    cases d <;> exact ⟨rfl, by simp⟩

/-- **Retired for good.** Every step keeps it, and no request is accepted by it. -/
theorem Note.retired (note : Note c m m' e) (h : m.Retired c) :
    m'.Retired c ∧ ∀ a, e = some a → a.isEffort = false ∧ ∀ o, a = .requested o → o = .closed := by
  obtain ⟨hclosed, hpending, hrequest⟩ := note.closed h.closed
  obtain ⟨hrest, heffort⟩ := note.rest h
  refine ⟨⟨hclosed, hrest, h.pending.imp_left hpending⟩, fun a ha => ⟨heffort a ha, fun o ho => ?_⟩⟩
  exact hrequest o (by rw [ha, ho])

end Steps

/-! ### A barrier -/

/-- What a caller can count on: from now on no request is accepted and the writer makes no save, and if the
last save is made on shutdown, every request that has been accepted has been dropped, or the writer has come
to the end of a save for it. -/
structure Journal.Barrier (c : Setup σ M) (k : Journal σ M) : Prop where
  later : ∀ u, Reachable (Journal.step c) k u → u.machine.activity .writer = .rest ∧
    ∃ es, u.events = k.events ++ es ∧
      ∀ a ∈ es, a.isEffort = false ∧ ∀ o, a = .requested o → o = .closed
  served : c.flushOnShutdown = true → ∀ pre o post, k.events = pre ++ .requested o :: post → o ≠ .closed →
    ∃ as a bs, post = as ++ a :: bs ∧ (∀ b ∈ as, b.takes = false) ∧
      (a = .dropped ∨ ∃ d result, a = .decided d ∧ .ended result ∈ efforts bs)

section Barrier

variable {c : Setup σ M} {j k u : Journal σ M}

theorem Journal.stops_of_reachable {slot : σ} {holder : Holder M} {reports : Reports}
    (h : Reachable (Journal.step c) ⟨.start slot holder reports, []⟩ j) : j.machine.Stops := by
  refine h.induction (P := fun j => j.machine.Stops) (fun hs => by cases hs) fun j l k hj hstep => ?_
  obtain ⟨m, hm, rfl⟩ := Option.map_eq_some_iff.mp hstep
  exact (note_of_step hm).stops hj

/-- A writer that makes no save has come to the end of every save that it has set out for. -/
theorem Followed.exists_ended {w : Writer M} {d : Flush.Decision} {es : List (Event M)}
    (h : Followed c w d es) (hrest : w.activity = .rest) (hattempts : c.attempts d = true) :
    ∃ result, .ended result ∈ efforts es := by
  have hcomplete : Complete c d (efforts es) := by
    unfold Followed at h
    split at h
    · exact h
    · cases w with
      | ready | stopped => exact h
      | complaining | finishing => exact h.2
      | saving => cases hrest
  rw [Complete, if_pos hattempts] at hcomplete
  obtain ⟨fs, result, -, hes⟩ := hcomplete
  exact ⟨result, by rw [hes]; exact List.mem_append_right _ (List.mem_singleton.mpr rfl)⟩

/-- **A cache that has retired is a barrier.** -/
theorem Journal.barrier_of_retired (hsound : k.Sound c) (h : k.machine.Retired c) : k.Barrier c := by
  refine ⟨fun u hu => ?_, fun hflush pre o post hevents ho => ?_⟩
  · have hinv := hu.induction (P := fun u => u.machine.Retired c ∧ ∃ es, u.events = k.events ++ es ∧
      ∀ a ∈ es, a.isEffort = false ∧ ∀ o, a = .requested o → o = .closed) ⟨h, [], by simp, by simp⟩ ?_
    · exact ⟨hinv.1.rest, hinv.2⟩
    · rintro u l v ⟨hu, es, hes, hquiet⟩ hstep
      obtain ⟨m, hm, rfl⟩ := Option.map_eq_some_iff.mp hstep
      obtain ⟨hm', hevent⟩ := (note_of_step hm).retired hu
      refine ⟨hm', es ++ (u.machine.event? c l).toList, by rw [hes, List.append_assoc], fun a ha => ?_⟩
      rcases List.mem_append.mp ha with ha | ha
      · exact hquiet a ha
      · exact hevent a (Option.mem_toList.mp ha)
  · have hpending : k.machine.shared.signal.pending = none :=
      h.pending.resolve_right fun hf => by rw [hflush] at hf; cases hf
    have hend (d : Flush.Decision) (as bs : List (Event M)) (hd : c.attempts d = true)
        (hpost : post = as ++ .decided d :: bs) : ∃ result, .ended result ∈ efforts bs := by
      refine Followed.exists_ended (hsound.answered (pre ++ .requested o :: as) (.decided d) bs ?_) h.rest hd
      rw [hevents, hpost, List.append_assoc, List.cons_append]
    rcases (hsound.answered pre _ post hevents ho).cases with ⟨-, hsome⟩ | ⟨as, a, bs, hpost, has, ha⟩
    · -- nothing waits any more
      rw [hpending] at hsome
      cases hsome
    · refine ⟨as, a, bs, hpost, has, ha.imp_right fun hd => ?_⟩
      rcases hd with rfl | rfl
      · obtain ⟨result, hresult⟩ := hend .flush as bs rfl hpost
        exact ⟨_, result, rfl, hresult⟩
      · obtain ⟨result, hresult⟩ := hend (.shutdown true) as bs hflush hpost
        exact ⟨_, result, rfl, hresult⟩

/-- As long as the signal is not closed, a caller that is outside can have a request accepted. -/
theorem Journal.exists_accepted {i : ThreadId} {last : Option (Answer M)}
    (hi : k.machine.callers i = .outside last) (hopen : k.machine.shared.signal.closed = false) :
    ∃ u o, Reachable (Journal.step c) k u ∧ u.events = k.events ++ [.requested o] ∧ o ≠ .closed := by
  have hrun : run (Journal.step c) k (.call i .schedule :: List.replicate 3 (.caller i {})) =
      some ⟨k.machine.move i (if (k.machine.shared.signal.request 0).1 = .coalesced then .merging
        else .done (.scheduled (k.machine.shared.signal.request 0).1)) { k.machine.shared with
          stats := k.machine.shared.stats.requested
          signal := (k.machine.shared.signal.request 0).2 },
        k.events ++ [.requested (k.machine.shared.signal.request 0).1]⟩ := by
    simp only [List.replicate, run_cons, run_nil, Journal.step, Machine.step, Machine.stepCaller, hi,
      Caller.start, Machine.callers_move_self, Machine.move_move, Machine.event?, Caller.event?,
      Option.map_some, Option.bind_some, Option.toList_none, Option.toList_some, List.append_nil]
    rfl
  refine ⟨_, _, ⟨_, hrun⟩, rfl, fun hclosed => ?_⟩
  rw [Flush.Signal.request_eq_closed_iff, hopen] at hclosed
  cases hclosed

end Barrier

section Saving

variable {c : Setup σ M} {m : Machine σ M}

/-- A writer that finds the signal closed and a save pending sets out for it, if the last save is made on
shutdown. -/
theorem exists_saving_of_ready (hwriter : m.writer = .ready) (hclosed : m.shared.signal.closed = true)
    (hpending : m.shared.signal.pending.isSome = true) (hflush : c.flushOnShutdown = true) :
    ∃ m', Reachable (Machine.step c) m m' ∧ m'.activity .writer ≠ .rest := by
  have hd : m.shared.signal.decide? c.timing 0 = some (.shutdown true,
      { m.shared.signal with pending := none, inFlight := true }) := by
    rw [Flush.Signal.decide?_eq_some_iff, hpending]
    exact ⟨rfl, .inl ⟨hclosed, rfl⟩⟩
  have hstep : Machine.step c (.writer {}) m = some { m with
      writer := .saving (.shutdown true) .enter
      shared := { m.shared with
        signal := { m.shared.signal with pending := none, inFlight := true } } } := by
    simp only [Machine.step, Machine.stepWriter, hwriter, hd, Option.map_some, Writer.decided, hflush,
      Bool.and_self, if_true]
  exact ⟨_, (Reachable.refl m).snoc hstep, by simp [Machine.activity, Writer.activity]⟩

theorem exists_saving_of_finishing (hwriter : m.writer = .finishing .flush)
    (hclosed : m.shared.signal.closed = true) (hpending : m.shared.signal.pending.isSome = true)
    (hflush : c.flushOnShutdown = true) :
    ∃ m', Reachable (Machine.step c) m m' ∧ m'.activity .writer ≠ .rest := by
  have hstep : Machine.step c (.writer {}) m = some { m with
      writer := .ready
      shared := { m.shared with signal := m.shared.signal.finish } } := by
    simp only [Machine.step, Machine.stepWriter, hwriter, Writer.after]
  obtain ⟨m', hm', hrest⟩ := exists_saving_of_ready (c := c) (m := { m with
    writer := .ready
    shared := { m.shared with signal := m.shared.signal.finish } }) rfl hclosed hpending hflush
  exact ⟨m', ((Reachable.refl m).snoc hstep).trans hm', hrest⟩

/-- If a save is pending when the signal has been closed, then the writer will set out for it, unless it has
decided to stop. -/
theorem exists_saving_of_closed (hstops : m.Stops) (hclosed : m.shared.signal.closed = true)
    (hpending : m.shared.signal.pending.isSome = true) (hflush : c.flushOnShutdown = true) :
    ∃ m', Reachable (Machine.step c) m m' ∧ m'.activity .writer ≠ .rest := by
  have hgoes : m.writer.isStopping = false := by
    by_contra hstopping
    rw [(hstops (Bool.of_not_eq_false hstopping)).2] at hpending
    cases hpending
  cases hwriter : m.writer with
  | ready => exact exists_saving_of_ready hwriter hclosed hpending hflush
  | saving d p => exact ⟨m, .refl m, by simp [Machine.activity, hwriter, Writer.activity]⟩
  | stopped =>
    rw [hwriter] at hgoes
    cases hgoes
  | finishing d =>
    rw [hwriter] at hgoes
    cases d with
    | flush => exact exists_saving_of_finishing hwriter hclosed hpending hflush
    | shutdown pending => cases hgoes
  | complaining d e =>
    rw [hwriter] at hgoes
    cases d with
    | shutdown pending => cases hgoes
    | flush =>
      obtain ⟨s, hstep, hsignal⟩ : ∃ s, Machine.step c (.writer {}) m = some { m with
          writer := .finishing .flush, shared := s } ∧ s.signal = m.shared.signal := by
        simp only [Machine.step, Machine.stepWriter, hwriter]
        exact ⟨_, rfl, rfl⟩
      obtain ⟨m', hm', hrest⟩ := exists_saving_of_finishing (c := c) (m := { m with
        writer := .finishing .flush, shared := s }) rfl (by rw [hsignal]; exact hclosed)
        (by rw [hsignal]; exact hpending) hflush
      exact ⟨m', ((Reachable.refl m).snoc hstep).trans hm', hrest⟩

end Saving

/-! ### When a shutdown returns -/

section Shutdown

variable {c : Setup σ M} {j k : Journal σ M}

/-- **What a barrier takes.** When a caller is outside, the cache is a barrier only if it has retired. -/
theorem Journal.Barrier.retired (h : k.Barrier c) (hstops : k.machine.Stops) {i : ThreadId}
    {last : Option (Answer M)} (hi : k.machine.callers i = .outside last) : k.machine.Retired c := by
  have hclosed : k.machine.shared.signal.closed = true := by
    -- otherwise the caller could have another request accepted
    by_contra hopen
    obtain ⟨u, o, hu, hevents, ho⟩ := Journal.exists_accepted (c := c) hi (Bool.of_not_eq_true hopen)
    obtain ⟨-, es, hes, hquiet⟩ := h.later u hu
    rw [hes, List.append_cancel_left_eq] at hevents
    exact ho ((hquiet (.requested o) (by rw [hevents]; simp)).2 o rfl)
  refine ⟨hclosed, (h.later k (.refl k)).1, ?_⟩
  -- otherwise the writer would set out once more
  by_contra hsaves
  rw [not_or, Bool.not_eq_false, ← ne_eq, ← Option.isSome_iff_ne_none] at hsaves
  obtain ⟨m, ⟨ls, hm⟩, hmoves⟩ := exists_saving_of_closed (c := c) hstops hclosed hsaves.1 hsaves.2
  obtain ⟨u, hu, rfl⟩ := Journal.exists_run hm
  exact hmoves (h.later u ⟨ls, hu⟩).1

/-- A shutdown returns because the writer has stopped, or because somebody else has taken its handle. -/
theorem joining_or_taking_of_stopped {m m' : Machine σ M} {i : ThreadId} {o : Outside}
    (h : Machine.step c (.caller i o) m = some m') (hi : m'.callers i = .done .stopped) :
    m.callers i = .joining ∧ m.writer.hasStopped = true ∧ m'.writer = m.writer ∨
      m.callers i = .taking ∧ m.shared.hasHandle = false := by
  replace h : m.stepCaller c i o = some m' := h
  cases hp : m.callers i <;> simp only [Machine.stepCaller, hp] at h
  case outside last => cases h
  case joining =>
    split at h <;> rename_i hstopped <;> cases h
    exact .inl ⟨rfl, hstopped, rfl⟩
  case taking =>
    cases h
    rw [Machine.callers_move_self] at hi
    split at hi <;> rename_i hhandle
    · cases hi
    · exact .inr ⟨rfl, Bool.of_not_eq_true hhandle⟩
  -- from everywhere else a caller goes on, or is told something else
  case loading p | saving p | invalidating p =>
    cases p with
    | done result =>
      cases h
      rw [Machine.callers_move_self] at hi
      cases hi
    | _ =>
      obtain ⟨⟨p', s⟩, -, rfl⟩ := Option.map_eq_some_iff.mp h
      rw [Machine.callers_move_self] at hi
      cases hi
  case marking reading =>
    cases h
    rw [Machine.callers_move_self] at hi
    split at hi <;> cases hi
  case checking deadline =>
    split at h
    · cases h
      rw [Machine.callers_move_self] at hi
      cases hi
    · split at h <;> cases h
      rw [Machine.callers_move_self] at hi
      cases hi
  all_goals
    cases h
    rw [Machine.callers_move_self] at hi
    cases hi

/-- **Shutdown.** A shutdown returns when the writer has stopped, or at once if somebody else has taken the
handle of the writer.  In the first case the caller can count on it that no request is accepted any more,
that the writer makes no save any more, and that every request that has been accepted has been seen to.  In
the second case it can count on that exactly if the signal has been closed, the writer is not making a save,
and it will not make one on shutdown. -/
theorem barrier_of_shutdown {slot : σ} {holder : Holder M} {reports : Reports}
    (h : Reachable (Journal.step c) ⟨.start slot holder reports, []⟩ j) {i : ThreadId} {o : Outside}
    (hstep : j.step c (.caller i o) = some k) (hi : k.machine.callers i = .done .stopped) :
    j.machine.callers i = .joining ∧ k.Barrier c ∨
      j.machine.callers i = .taking ∧ j.machine.shared.hasHandle = false ∧
        (k.Barrier c ↔ k.machine.Retired c) := by
  have hk := h.snoc hstep
  have hsound := Journal.sound_of_reachable hk
  have hstops := Journal.stops_of_reachable hk
  obtain ⟨m, hm, rfl⟩ := Option.map_eq_some_iff.mp hstep
  rcases joining_or_taking_of_stopped hm hi with ⟨hjoining, hstopped, hwriter⟩ | ⟨htaking, hhandle⟩
  · refine .inl ⟨hjoining, Journal.barrier_of_retired hsound ?_⟩
    -- a writer that has stopped has left nothing behind
    have hwstopped : m.writer = .stopped := by
      rw [← hwriter] at hstopped
      cases hw : m.writer <;> rw [hw] at hstopped <;> first | rfl | cases hstopped
    obtain ⟨hclosed, hpending⟩ := hstops (by simp only [hwstopped]; rfl)
    exact ⟨hclosed, by simp only [Machine.activity, hwstopped]; rfl, .inl hpending⟩
  · exact .inr ⟨htaking, hhandle, fun hbarrier => hbarrier.retired hstops hi,
      Journal.barrier_of_retired hsound⟩

/-- A save is asked for, and a caller shuts the cache down and waits for the writer, which makes the save
before it stops. -/
def shutdownRun : List (Machine.Label MemorySlot Value) :=
  .call 0 .schedule :: List.replicate 3 (.caller 0 {}) ++ .call 0 .shutdown ::
    List.replicate 2 (.caller 0 {}) ++ List.replicate 13 (.writer {})

/-- The caller that has waited for the writer can count on it that all is done. -/
theorem barrier_of_shutdown_joined :
    ∃ j k, run (Journal.step textSetup) ⟨blankStart, []⟩ shutdownRun = some j ∧
      j.step textSetup (.caller 0 {}) = some k ∧ k.machine.callers 0 = .done .stopped ∧
      k.Barrier textSetup := by
  obtain ⟨j, k, hrun, hjoining, hstep, hi⟩ : ∃ j k,
      run (Journal.step textSetup) ⟨blankStart, []⟩ shutdownRun = some j ∧
        j.machine.callers 0 = .joining ∧ j.step textSetup (.caller 0 {}) = some k ∧
          k.machine.callers 0 = .done .stopped := ⟨_, _, rfl, rfl, rfl, rfl⟩
  rcases barrier_of_shutdown ⟨_, hrun⟩ hstep hi with ⟨-, hbarrier⟩ | ⟨htaking, -⟩
  · exact ⟨j, k, hrun, hstep, hi, hbarrier⟩
  · rw [hjoining] at htaking
    cases htaking

end Shutdown

/-- A save is asked for and the writer decides on it; a caller closes the signal and waits for the writer,
and another one is about to find the handle taken. -/
def overtakenRun : List (Machine.Label MemorySlot Value) :=
  .call 0 .schedule :: List.replicate 3 (.caller 0 {}) ++ .writer {} :: .call 0 .shutdown ::
    List.replicate 2 (.caller 0 {}) ++ [.call 1 .shutdown]

/-- **A shutdown that is no barrier.** The second of two callers that shut a cache down is told at once that
it has stopped, although the writer is making a save.  The slot is empty then, and after that the writer
fills it. -/
theorem shutdown_overtaken :
    ∃ j k u blob, run (Journal.step textSetup) ⟨blankStart, []⟩ overtakenRun = some j ∧
      j.step textSetup (.caller 1 {}) = some k ∧ k.machine.callers 1 = .done .stopped ∧
      ¬ k.Barrier textSetup ∧ k.machine.shared.slot.blob = none ∧
      run (Journal.step textSetup) k (List.replicate 6 (.writer {})) = some u ∧
      u.machine.shared.slot.blob = some blob := by
  obtain ⟨j, k, u, blob, hrun, hstep, hi, hsaving, hempty, hlater, hfull⟩ : ∃ j k u blob,
      run (Journal.step textSetup) ⟨blankStart, []⟩ overtakenRun = some j ∧
        j.step textSetup (.caller 1 {}) = some k ∧ k.machine.callers 1 = .done .stopped ∧
          k.machine.writer = .saving .flush .enter ∧ k.machine.shared.slot.blob = none ∧
            run (Journal.step textSetup) k (List.replicate 6 (.writer {})) = some u ∧
              u.machine.shared.slot.blob = some blob :=
    ⟨_, _, _, _, rfl, rfl, rfl, rfl, rfl, rfl, rfl⟩
  refine ⟨j, k, u, blob, hrun, hstep, hi, fun hbarrier => ?_, hempty, hlater, hfull⟩
  have hrest := (hbarrier.later k (.refl k)).1
  rw [Machine.activity, hsaving] at hrest
  cases hrest

end SnapStore.Cache
