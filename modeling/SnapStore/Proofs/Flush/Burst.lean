import SnapStore.Proofs.Flush.Steps

namespace SnapStore.Flush

/-!
# Bursts of requests

The requests that have joined the pending save are a burst.  The signal keeps no more of it than two clock
readings: the one of the request that made the save pending, and the one of the request that took the lock
last.  From these it is settled when the save is due, and how long the writer may sleep.

* `Burst` — a signal with its threads and the readings of all requests of the burst; it only looks on.
* `Burst.Valid` — the pending save is the one of these readings, and a writer that is asleep will wake up in
  time.  Every reachable burst is valid.
* `burst_cannot_postpone` — however many requests join, the save is due in time; the writer makes it when it
  is due and not earlier, and never sleeps longer.
* `save_waits_for_the_last` — what the requests of a burst can rely on; `save_overtakes_a_request` — what
  they cannot rely on, for the request that takes the lock last need not be the one that has read the clock
  last.
-/

/-- A signal with its threads and the requests that have joined the pending save, by their clock readings, in
the order in which they took the lock. -/
structure Burst where
  machine : Machine := .start
  joined : List Nat := []

/-- The readings in the pending save after something has been done with the signal. -/
def Signal.joinedAfter (t : Timing) (s : Signal) (joined : List Nat) : Action → List Nat
  | .request now => if s.closed then joined else joined ++ [now]
  | .cancel => []
  | .decide now => if (s.decide? t now).isSome then [] else joined
  | .close | .finish => joined

/-- One step of one thread. -/
def Burst.step (t : Timing) (l : Machine.Label) (b : Burst) : Option Burst :=
  (b.machine.step t l).map fun machine =>
    ⟨machine, (b.machine.action? l).elim b.joined (b.machine.signal.joinedAfter t b.joined)⟩

/-- The readings only look on: every run of the signal is a run of the burst. -/
theorem Burst.exists_run {t : Timing} {b : Burst} {ls : List Machine.Label} {m : Machine}
    (h : run (Machine.step t) b.machine ls = some m) :
    ∃ b', run (Burst.step t) b ls = some b' ∧ b'.machine = m := by
  refine exists_run_of_run (fun l b => ?_) h
  rw [step, Option.map_map]
  exact Option.map_id' ..

/-! ### The pending save of a burst -/

/-- The pending save of requests with the given readings, in the order in which they came. -/
def Pending.ofReadings? : List Nat → Option Pending
  | [] => none
  | first :: rest => some ⟨first, rest.getLastD first⟩

theorem Pending.ofReadings?_eq_some_iff {joined : List Nat} {p : Pending} :
    ofReadings? joined = some p ↔ joined.head? = some p.first ∧ joined.getLast? = some p.last := by
  cases p
  cases joined with
  | nil => simp [ofReadings?]
  | cons first rest => simp [ofReadings?, List.getLast?_cons]

/-- A request that joins leaves the first reading as it is. -/
theorem Pending.ofReadings?_concat (joined : List Nat) (now : Nat) :
    ofReadings? (joined ++ [now]) =
      some (match ofReadings? joined with
        | some p => { p with last := now }
        | none => ⟨now, now⟩) := by
  cases joined <;> simp [ofReadings?]

/-- Whatever is done with a signal, the pending save is the one of the requests that have joined it. -/
theorem Signal.pending_perform {t : Timing} {s : Signal} {joined : List Nat}
    (h : s.pending = Pending.ofReadings? joined) (a : Action) :
    (s.perform t a).2.pending = Pending.ofReadings? (s.joinedAfter t joined a) := by
  cases a with
  | request now =>
    simp only [perform, request, joinedAfter]
    cases hclosed : s.closed with
    | true => simpa using h
    | false =>
      rw [if_neg (by simp), if_neg (by simp), Pending.ofReadings?_concat, ← h]
      cases s.pending <;> rfl
  | cancel => rfl
  | close | finish => exact h
  | decide now =>
    simp only [perform, joinedAfter]
    cases hd : s.decide? t now with
    | none => exact h
    | some r =>
      -- whatever the writer decides, it takes what is pending
      obtain ⟨d, s'⟩ := r
      obtain ⟨rfl, -⟩ := decide?_eq_some_iff.mp hd
      rfl

/-- A pending save is due when the first request has waited as long as it can, if not earlier. -/
theorem Pending.due_le (p : Pending) (t : Timing) : p.due t ≤ p.first + max t.delay t.maxDelay := by
  simp only [due, Timing.cap]
  omega

/-- A request on its own waits for the delay. -/
theorem Pending.due_of_alone {p : Pending} (h : p.last = p.first) (t : Timing) :
    p.due t = p.first + t.delay := by
  simp only [due, Timing.cap, h]
  omega

theorem Pending.due_le_iff {p : Pending} {t : Timing} {now : Nat} :
    p.due t ≤ now ↔ p.last + t.delay ≤ now ∨ p.first + max t.delay t.maxDelay ≤ now := by
  simp only [due, Timing.cap]
  omega

/-! ### The sleep of the writer -/

/-- A writer that is asleep has not been asked to stop, and if a save is pending then it sleeps until the
save is due. -/
def Machine.SleepsWell (t : Timing) (m : Machine) : Prop :=
  ∀ till, m.writer = .asleep till → m.signal.closed = false ∧
    (m.signal.pending.isSome = true → till = m.signal.due? t)

theorem Writer.rouse_ne_asleep {w : Writer} {till : Option Nat} : w.rouse ≠ .asleep till := by
  cases w <;> intro h <;> cases h

/-- **No wakeup is lost.** Whoever makes a save pending, changes when it is due or asks the writer to stop
also wakes it up. -/
theorem Does.sleepsWell {t : Timing} {m m' : Machine} {l : Machine.Label} {a : Option Action}
    (h : Does t m m' l a) (hm : m.SleepsWell t) : m'.SleepsWell t := by
  intro till hasleep
  cases h with
  | rest signal writer =>
    rw [signal]
    exact hm till (writer ▸ hasleep)
  | wakes _ _ _ writer | dies _ _ _ writer =>
    rw [writer] at hasleep
    cases hasleep
  | request reading signal writer =>
    cases hclosed : m.signal.closed with
    | true =>
      -- nobody sleeps in front of a closed signal
      rw [writer, if_pos hclosed] at hasleep
      rw [(hm till hasleep).1] at hclosed
      cases hclosed
    | false =>
      rw [writer, hclosed] at hasleep
      exact absurd hasleep Writer.rouse_ne_asleep
  | cancel signal writer =>
    rw [signal]
    exact ⟨(hm till (writer ▸ hasleep)).1, fun hp => by cases hp⟩
  | close signal writer =>
    rw [writer] at hasleep
    exact absurd hasleep Writer.rouse_ne_asleep
  | looks now was look =>
    simp only [Writer.look] at look
    cases hd : m.signal.decide? t now with
    | some r =>
      rw [hd, Prod.mk.injEq, hasleep] at look
      cases look.1
    | none =>
      rw [hd, Prod.mk.injEq, hasleep, Writer.asleep.injEq] at look
      rw [look.1, look.2]
      refine ⟨?_, fun _ => rfl⟩
      -- a writer that finds the signal closed has something to do
      refine Bool.of_not_eq_true fun hclosed => ?_
      have hsome : (m.signal.decide? t now).isSome = true := Signal.decide?_isSome_iff.mpr (.inl hclosed)
      rw [hd] at hsome
      cases hsome
  | finishes d was signal writer =>
    rw [writer] at hasleep
    cases d <;> cases hasleep

/-! ### Valid bursts -/

/-- The pending save is the one of the requests that have joined it, and the writer sleeps well. -/
structure Burst.Valid (t : Timing) (b : Burst) : Prop where
  pending : b.machine.signal.pending = Pending.ofReadings? b.joined
  sleepsWell : b.machine.SleepsWell t

theorem Burst.valid_start (t : Timing) : Burst.Valid t {} where
  pending := rfl
  sleepsWell _ h := by cases h

variable {t : Timing} {b b' : Burst} {l : Machine.Label} {now : Nat}

/-- **Every step keeps it.** A step of a valid burst leads to a valid burst. -/
theorem Burst.Valid.step (hb : b.Valid t) (h : b.step t l = some b') : b'.Valid t := by
  obtain ⟨m, hm, rfl⟩ := Option.map_eq_some_iff.mp h
  have does := does_of_step hm
  refine ⟨?_, does.sleepsWell hb.sleepsWell⟩
  show m.signal.pending = _
  rw [does.signal_eq]
  cases b.machine.action? l with
  | none => exact hb.pending
  | some a => exact Signal.pending_perform hb.pending a

/-- The bursts that there can be are valid. -/
theorem Burst.valid_of_reachable (h : Reachable (Burst.step t) {} b) : b.Valid t :=
  h.induction (Burst.valid_start t) fun _ _ _ hb hs => hb.step hs

/-- Whatever is done with a signal, a save that stays pending keeps its first request. -/
theorem Signal.first_of_perform {s : Signal} {p p' : Pending} {a : Action} (hp : s.pending = some p)
    (hp' : (s.perform t a).2.pending = some p') : p'.first = p.first := by
  cases a with
  | request now =>
    simp only [perform, request, hp] at hp'
    split at hp'
    · rw [hp, Option.some.injEq] at hp'
      rw [hp']
    · rw [Option.some.injEq] at hp'
      rw [← hp']
  | cancel => cases hp'
  | close | finish =>
    rw [show (s.perform t _).2.pending = s.pending from rfl, hp, Option.some.injEq] at hp'
    rw [hp']
  | decide now =>
    simp only [perform] at hp'
    cases hd : s.decide? t now with
    | none =>
      rw [hd, hp, Option.some.injEq] at hp'
      rw [hp']
    | some r =>
      obtain ⟨d, s'⟩ := r
      obtain ⟨rfl, -⟩ := decide?_eq_some_iff.mp hd
      rw [hd] at hp'
      cases hp'

theorem Machine.first_of_step {m m' : Machine} {p p' : Pending} (h : m.step t l = some m')
    (hp : m.signal.pending = some p) (hp' : m'.signal.pending = some p') : p'.first = p.first := by
  rw [(does_of_step h).signal_eq] at hp'
  cases ha : m.action? l with
  | none =>
    rw [ha, Option.elim_none, hp, Option.some.injEq] at hp'
    rw [hp']
  | some a =>
    rw [ha, Option.elim_some] at hp'
    exact Signal.first_of_perform hp hp'

/-! ### What the writer does when it looks -/

/-- A writer that looks at the signal: to stop comes first, then to make the save that is due; else it sleeps
until the save will be due. -/
theorem Machine.exists_look {m : Machine} (hready : m.writer = .ready) (now : Nat) :
    ∃ m', m.step t (.writer now) = some m' ∧ (m'.writer, m'.signal) = Writer.look t now m.signal := by
  simp only [step, stepWriter, hready]
  exact ⟨_, rfl, rfl⟩

theorem Writer.look_of_closed {s : Signal} (hclosed : s.closed = true) :
    (Writer.look t now s).1 = .working (.shutdown s.pending.isSome) := by
  rw [Writer.look, Signal.decide?_eq_some_iff.mpr ⟨rfl, .inl ⟨hclosed, rfl⟩⟩]

theorem Writer.look_of_due {s : Signal} {p : Pending} (hopen : s.closed = false) (hp : s.pending = some p)
    (hdue : p.due t ≤ now) :
    Writer.look t now s = (.working .flush, { s with pending := none, inFlight := true }) := by
  rw [Writer.look, Signal.decide?_eq_some_iff.mpr ⟨rfl, .inr ⟨hopen, rfl, p, hp, hdue⟩⟩, hp]
  rfl

/-- A writer that finds nothing to do goes to sleep. -/
theorem Writer.look_of_waiting {s : Signal} (hopen : s.closed = false)
    (hwait : ∀ p, s.pending = some p → now < p.due t) : Writer.look t now s = (.asleep (s.due? t), s) := by
  have hnone : s.decide? t now = none := by
    rw [← Option.not_isSome_iff_eq_none, Signal.decide?_isSome_iff]
    rintro (hclosed | ⟨p, hp, hdue⟩)
    · rw [hopen] at hclosed
      cases hclosed
    · have := hwait p hp
      omega
  rw [Writer.look, hnone]

/-- **A burst cannot postpone its save.** A save that is pending is due at the latest when its first request
has waited as long as it can, however many requests have joined since; none of them changes which request is
the first, and a request on its own waits for the delay.  Whenever the writer looks at the signal it makes
the save if it is due, and only then; if it has been asked to stop, then it stops whatever is pending.  And
a writer that is asleep, and has not been woken up, has nothing to do, or will wake up when the save is due
at the latest. -/
theorem burst_cannot_postpone {ls : List Machine.Label} {m : Machine}
    (h : run (Machine.step t) .start ls = some m) :
    ∃ b, run (Burst.step t) {} ls = some b ∧ b.machine = m ∧
    (∀ p, m.signal.pending = some p →
      b.joined.head? = some p.first ∧ p.due t ≤ p.first + max t.delay t.maxDelay ∧
        (b.joined.length = 1 → p.due t = p.first + t.delay)) ∧
    (∀ l m' p p', m.step t l = some m' → m.signal.pending = some p → m'.signal.pending = some p' →
      p'.first = p.first) ∧
    (∀ now, m.writer = .ready → ∃ m', m.step t (.writer now) = some m' ∧
      (m.signal.closed = true → m'.writer = .working (.shutdown m.signal.pending.isSome)) ∧
      (m.signal.closed = false →
        (∀ p, m.signal.pending = some p → p.due t ≤ now →
          m'.writer = .working .flush ∧
            m'.signal = { m.signal with pending := none, inFlight := true }) ∧
        ((∀ p, m.signal.pending = some p → now < p.due t) →
          m'.writer = .asleep (m.signal.due? t) ∧ m'.signal = m.signal))) ∧
    ∀ till, m.writer = .asleep till →
      m.signal.closed = false ∧
        ∀ p, m.signal.pending = some p → ∃ time, till = some time ∧ time ≤ p.due t := by
  obtain ⟨b, hb, rfl⟩ := Burst.exists_run (b := {}) h
  have hvalid := Burst.valid_of_reachable ⟨ls, hb⟩
  refine ⟨b, hb, rfl, fun p hp => ?_, fun l m' p p' hs hp hp' => Machine.first_of_step hs hp hp',
    fun now hready => ?_, fun till hasleep => ?_⟩
  · obtain ⟨hfirst, hlast⟩ := Pending.ofReadings?_eq_some_iff.mp (hvalid.pending.symm.trans hp)
    refine ⟨hfirst, p.due_le t, fun hone => Pending.due_of_alone ?_ t⟩
    obtain ⟨reading, hjoined⟩ := List.length_eq_one_iff.mp hone
    rw [hjoined] at hfirst hlast
    cases hfirst
    exact (Option.some.inj hlast).symm
  · obtain ⟨m', hstep, hlook⟩ := Machine.exists_look (t := t) hready now
    refine ⟨m', hstep, fun hclosed => ?_, fun hopen => ⟨fun p hp hdue => ?_, fun hwait => ?_⟩⟩
    · exact (congrArg Prod.fst hlook).trans (Writer.look_of_closed hclosed)
    · rw [Writer.look_of_due hopen hp hdue] at hlook
      exact Prod.mk.inj hlook
    · rw [Writer.look_of_waiting hopen hwait] at hlook
      exact Prod.mk.inj hlook
  · obtain ⟨hopen, htill⟩ := hvalid.sleepsWell till hasleep
    refine ⟨hopen, fun p hp => ⟨p.due t, ?_, Nat.le_refl _⟩⟩
    rw [htill (by rw [hp]; rfl), Signal.due?, hp]
    rfl

/-- The writer goes to sleep, two requests are made, and the writer looks again. -/
def burstRun : List Machine.Label :=
  [.writer 0, .call 0 .request, .caller 0 10, .caller 0 10, .call 1 .request, .caller 1 60, .caller 1 60,
    .writer 60]

/-- The writer sleeps until the second request has been quiet for long enough, which is before the first one
has waited as long as it can. -/
theorem burst_cannot_postpone_two :
    ∃ m b, run (Machine.step ⟨100, 250⟩) .start burstRun = some m ∧
      run (Burst.step ⟨100, 250⟩) {} burstRun = some b ∧ b.joined = [10, 60] ∧
      m.writer = .asleep (some 160) ∧ m.signal.pending = some ⟨10, 60⟩ ∧
      b.joined.head? = some 10 ∧ Pending.due ⟨10, 60⟩ ⟨100, 250⟩ ≤ 10 + 250 ∧
      ∃ time, some 160 = some time ∧ time ≤ Pending.due ⟨10, 60⟩ ⟨100, 250⟩ := by
  obtain ⟨m, hm, hwriter, hpending⟩ : ∃ m, run (Machine.step ⟨100, 250⟩) .start burstRun = some m ∧
      m.writer = .asleep (some 160) ∧ m.signal.pending = some ⟨10, 60⟩ := ⟨_, rfl, rfl, rfl⟩
  obtain ⟨b, hb, -, hdue, -, -, hsleep⟩ := burst_cannot_postpone hm
  have hjoined : (run (Burst.step ⟨100, 250⟩) {} burstRun).map (·.joined) = some [10, 60] := by decide
  rw [hb, Option.map_some, Option.some.injEq] at hjoined
  obtain ⟨hfirst, hle, -⟩ := hdue _ hpending
  exact ⟨m, b, hm, hb, hjoined, hwriter, hpending, hfirst, hle, (hsleep _ hwriter).2 _ hpending⟩

/-! ### What a request of a burst can rely on -/

/-- **Not too early.** When the writer makes a save because it is due, then the request that took the lock
last has been quiet for the delay, or the one that made the save pending has waited as long as it can.  If
the former is also the one that has read the clock last, then all requests of the burst have been quiet for
the delay, or the earliest of them has waited as long as it can. -/
theorem save_waits_for_the_last (h : Reachable (Burst.step t) {} b) (hready : b.machine.writer = .ready)
    (hstep : b.step t (.writer now) = some b') (hflush : b'.machine.writer = .working .flush) :
    ∃ first last, b.joined.head? = some first ∧ b.joined.getLast? = some last ∧
      (last + t.delay ≤ now ∨ first + max t.delay t.maxDelay ≤ now) ∧
      ((∀ reading ∈ b.joined, reading ≤ last) →
        (∀ reading ∈ b.joined, reading + t.delay ≤ now) ∨
          ∃ earliest, b.joined.min? = some earliest ∧ earliest + max t.delay t.maxDelay ≤ now) := by
  obtain ⟨m, hm, rfl⟩ := Option.map_eq_some_iff.mp hstep
  obtain ⟨m', hm', hlook⟩ := Machine.exists_look (t := t) hready now
  rw [hm, Option.some.injEq] at hm'
  subst hm'
  replace hflush : m.writer = .working .flush := hflush
  -- the writer has found a save that is due
  obtain ⟨p, hp, hdue⟩ : ∃ p, b.machine.signal.pending = some p ∧ p.due t ≤ now := by
    cases hd : b.machine.signal.decide? t now with
    | none =>
      rw [Writer.look, hd, Prod.mk.injEq, hflush] at hlook
      cases hlook.1
    | some r =>
      obtain ⟨d, s⟩ := r
      rw [Writer.look, hd, Prod.mk.injEq, hflush, Writer.working.injEq] at hlook
      obtain ⟨-, ⟨-, rfl⟩ | ⟨-, -, p, hp, hdue⟩⟩ := Signal.decide?_eq_some_iff.mp hd
      · cases hlook.1
      · exact ⟨p, hp, hdue⟩
  obtain ⟨hfirst, hlast⟩ :=
    Pending.ofReadings?_eq_some_iff.mp ((Burst.valid_of_reachable h).pending.symm.trans hp)
  have hwaited := Pending.due_le_iff.mp hdue
  refine ⟨p.first, p.last, hfirst, hlast, hwaited, fun hlatest => ?_⟩
  refine hwaited.imp (fun hquiet => ?_) fun hcap => ?_
  · intro reading hreading
    have := hlatest reading hreading
    omega
  · -- the earliest reading is not later than the first one
    have hmem : p.first ∈ b.joined := List.mem_of_mem_head? hfirst
    obtain ⟨earliest, hmin⟩ := Option.isSome_iff_exists.mp
      (List.isSome_min?_of_mem hmem)
    have := (List.min?_eq_some_iff.mp hmin).2 _ hmem
    exact ⟨earliest, hmin, by omega⟩

/-- The time that a step takes from the clock. -/
def Machine.Label.time? : Machine.Label → Option Nat
  | .caller _ now | .writer now => some now
  | _ => none

/-- One caller reads the clock, another one reads it later and takes the lock, and only then the first one
takes the lock. -/
def overtakenReadings : List Machine.Label :=
  [.call 0 .request, .call 1 .request, .caller 0 10, .caller 1 20, .caller 1 20, .caller 0 30]

/-- **A save that comes too early.** The clock never goes back, and yet the writer makes the save when the
request that read it at 20 has not been quiet for the delay of 100, long before any request has waited for
the cap of 1000: the request that took the lock last had read the clock first. -/
theorem save_overtakes_a_request :
    ((overtakenReadings ++ [Machine.Label.writer 110]).filterMap Machine.Label.time?).Pairwise (· ≤ ·) ∧
    (run (Burst.step ⟨100, 1000⟩) {} overtakenReadings).map (fun b => (b.machine.writer, b.joined)) =
      some (.ready, [20, 10]) ∧
    (run (Burst.step ⟨100, 1000⟩) {} (overtakenReadings ++ [.writer 110])).map (·.machine.writer) =
      some (.working .flush) ∧
    ¬ ((∀ reading ∈ [20, 10], reading + 100 ≤ 110) ∨
        ∃ earliest, [20, 10].min? = some earliest ∧ earliest + max 100 1000 ≤ 110) := by
  refine ⟨by decide, by decide, by decide, ?_⟩
  rintro (hquiet | ⟨earliest, -, hcap⟩)
  · have := hquiet 20 (by simp)
    omega
  · omega

end SnapStore.Flush
