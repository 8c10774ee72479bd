import SnapStore.Cache.Machine

namespace SnapStore.Cache

/-!
# Loads and saves that nobody disturbs

A thread that is left alone goes through its load or save from the beginning to the end.

* `run_loading`, `run_saving`, `run_invalidating` and `run_writing` — the steps of a load, a save or an
  invalidation, one after another, are a run of the cache.
* `run_load_cold` — a load with nothing in memory returns what the blob in the slot holds.
* `run_save` — a save of a model that can be written writes it.
* `textStart` and `blankStart` are caches of texts, for examples.
-/

variable {σ M : Type} {c : Setup σ M}

/-! ### Steps of one thread -/

/-- The next step of a load together with what is shared. -/
def Load.next (c : Setup σ M) (me : Actor) (o : Outside) (x : Load M × Shared σ M) :
    Option (Load M × Shared σ M) :=
  x.1.step c me o x.2

/-- The next step of a save together with what is shared. -/
def Save.next (c : Setup σ M) (me : Actor) (o : Outside) (x : Save M × Shared σ M) :
    Option (Save M × Shared σ M) :=
  x.1.step c me o x.2

/-- The next step of an invalidation together with what is shared. -/
def Invalidation.next (c : Setup σ M) (me : Actor) (o : Outside) (x : Invalidation × Shared σ M) :
    Option (Invalidation × Shared σ M) :=
  x.1.step c me o x.2

@[simp] theorem Machine.move_move (m : Machine σ M) (i : ThreadId) (q q' : Caller M)
    (s s' : Shared σ M) : (m.move i q s).move i q' s' = m.move i q' s' := by
  simp only [move, goTo_goTo]

/-- A caller that goes on to where it is does nothing. -/
theorem Machine.move_eq_self {m : Machine σ M} {i : ThreadId} {q : Caller M} (h : m.callers i = q) :
    m.move i q m.shared = m := by
  have hcallers : goTo m.callers i q = m.callers := by
    funext j
    by_cases hj : j = i
    · rw [hj, goTo_self, h]
    · rw [goTo_of_ne m.callers q hj]
  rw [move, hcallers]

/-- **A load on its own.** Its steps, one after another, are a run of the cache. -/
theorem run_loading (m : Machine σ M) (i : ThreadId) {os : List Outside} {p p' : Load M}
    {s s' : Shared σ M} (h : run (Load.next c (.caller i)) (p, s) os = some (p', s')) :
    run (Machine.step c) (m.move i (.loading p) s) (os.map (.caller i)) =
      some (m.move i (.loading p') s') := by
  refine run_map (f := fun x => m.move i (.loading x.1) x.2) ?_ h
  rintro o ⟨q, s⟩ ⟨q', s'⟩ hq
  have hi : (m.move i (.loading q) s).callers i = .loading q := goTo_self ..
  cases q with
  | done result => cases hq
  | _ =>
    simp only [Machine.step, Machine.stepCaller, hi]
    rw [show Load.step c (.caller i) o (m.move i _ s).shared _ = some (q', s') from hq, Option.map_some,
      Machine.move_move]

/-- **A save on its own.** Its steps, one after another, are a run of the cache. -/
theorem run_saving (m : Machine σ M) (i : ThreadId) {os : List Outside} {p p' : Save M}
    {s s' : Shared σ M} (h : run (Save.next c (.caller i)) (p, s) os = some (p', s')) :
    run (Machine.step c) (m.move i (.saving p) s) (os.map (.caller i)) =
      some (m.move i (.saving p') s') := by
  refine run_map (f := fun x => m.move i (.saving x.1) x.2) ?_ h
  rintro o ⟨q, s⟩ ⟨q', s'⟩ hq
  have hi : (m.move i (.saving q) s).callers i = .saving q := goTo_self ..
  cases q with
  | done result => cases hq
  | _ =>
    simp only [Machine.step, Machine.stepCaller, hi]
    rw [show Save.step c (.caller i) o (m.move i _ s).shared _ = some (q', s') from hq, Option.map_some,
      Machine.move_move]

/-- **An invalidation on its own.** Its steps, one after another, are a run of the cache. -/
theorem run_invalidating (m : Machine σ M) (i : ThreadId) {os : List Outside} {p p' : Invalidation}
    {s s' : Shared σ M} (h : run (Invalidation.next c (.caller i)) (p, s) os = some (p', s')) :
    run (Machine.step c) (m.move i (.invalidating p) s) (os.map (.caller i)) =
      some (m.move i (.invalidating p') s') := by
  refine run_map (f := fun x => m.move i (.invalidating x.1) x.2) ?_ h
  rintro o ⟨q, s⟩ ⟨q', s'⟩ hq
  have hi : (m.move i (.invalidating q) s).callers i = .invalidating q := goTo_self ..
  cases q with
  | done result => cases hq
  | _ =>
    simp only [Machine.step, Machine.stepCaller, hi]
    rw [show Invalidation.step c (.caller i) o (m.move i _ s).shared _ = some (q', s') from hq,
      Option.map_some, Machine.move_move]

/-- **A save of the writer on its own.** Its steps, one after another, are a run of the cache. -/
theorem run_writing (m : Machine σ M) (d : Flush.Decision) {os : List Outside} {p p' : Save M}
    {s s' : Shared σ M} (h : run (Save.next c .writer) (p, s) os = some (p', s')) :
    run (Machine.step c) { m with writer := .saving d p, shared := s } (os.map .writer) =
      some { m with writer := .saving d p', shared := s' } := by
  refine run_map (f := fun x => { m with writer := .saving d x.1, shared := x.2 }) ?_ h
  rintro o ⟨q, s⟩ ⟨q', s'⟩ hq
  cases q with
  | done result => cases hq
  | _ =>
    simp only [Machine.step, Machine.stepWriter]
    rw [show Save.step c .writer o s _ = some (q', s') from hq, Option.map_some]

/-! ### From the beginning to the end -/

/-- What a blob holds for a cache that knows nothing yet. -/
def modelOf (c : Setup σ M) (blob : Option Bytes) : Option M :=
  blob.bind fun b => (Snapshot.decode c.codec c.modelVersion b).toOption.map (·.2)

/-- A load that nobody disturbs, with nothing in memory, returns what the blob in the slot holds. -/
theorem run_load_cold (me : Actor) {s : Shared σ M} {blob : Option Bytes}
    (hcurrent : s.current = none) (hload : s.loadLane = none) (hwrite : s.writeLane = none)
    (hbad : s.knownBad = false) (hread : c.slot.read s.slot = .ok blob) :
    ∃ n, (run (Load.next c me) (.peek, s) (List.replicate n {})).map (·.1) =
      some (.done (modelOf c blob)) := by
  cases blob with
  | none =>
    -- nothing to decode, and nothing to put into memory
    refine ⟨7, ?_⟩
    simp only [List.replicate, run_cons, run_nil, Load.next, Load.step, hcurrent, hload, hbad, hread,
      Outside.outcome, Option.isNone_none, if_true, Bool.false_eq_true, if_false, Option.bind_some,
      modelOf, Option.bind_none, Option.map_some]
  | some b =>
    cases hdecode : Snapshot.decode c.codec c.modelVersion b with
    | ok r =>
      refine ⟨9, ?_⟩
      simp only [List.replicate, run_cons, run_nil, Load.next, Load.step, hcurrent, hload, hwrite, hbad,
        hread, hdecode, Outside.outcome, Option.isNone_none, if_true, Bool.false_eq_true, if_false,
        Option.bind_some, modelOf, Except.toOption, Option.map_some, Option.getD_none]
    | error e =>
      -- the error is noted and reported on the way
      refine ⟨9, ?_⟩
      simp only [List.replicate, run_cons, run_nil, Load.next, Load.step, hcurrent, hload, hbad,
        hread, hdecode, Outside.outcome, Option.isNone_none, if_true, Bool.false_eq_true, if_false,
        Option.bind_some, modelOf, Except.toOption, Option.map_none, Option.map_some]

/-- A save that nobody disturbs gets as far as making the blob. -/
theorem run_save_encode (me : Actor) {s : Shared σ M} {model : M} (hfree : s.writeLane = none)
    (hcurrent : s.holder.current = some model) :
    ∃ n s', run (Save.next c me) (.enter, s) (List.replicate n {}) = some (.encode model, s') ∧
      s'.slot = s.slot := by
  by_cases hseeded : s.seeded = true
  · refine ⟨3, { s with writeLane := some me }, ?_, rfl⟩
    simp only [List.replicate, run_cons, run_nil, Save.next, Save.step, hfree, hcurrent, hseeded,
      Option.isNone_none, if_true, Option.bind_some]
  · have h3 : run (Save.next c me) (.enter, s) (List.replicate 3 {}) =
        some (.receive model (c.slot.read s.slot), { s with writeLane := some me, seeded := true }) := by
      simp only [List.replicate, run_cons, run_nil, Save.next, Save.step, hfree, hcurrent, hseeded,
        Option.isNone_none, if_true, Bool.false_eq_true, if_false, Option.bind_some]
    -- whatever generation is found, the save goes on
    obtain ⟨s', h4, hslot⟩ : ∃ s', Save.step c me {} { s with writeLane := some me, seeded := true }
        (.receive model (c.slot.read s.slot)) = some (.encode model, s') ∧ s'.slot = s.slot := by
      simp only [Save.step]
      split <;> exact ⟨_, rfl, rfl⟩
    refine ⟨4, s', ?_, hslot⟩
    rw [List.replicate_succ', run_append, h3, Option.bind_some, run_singleton]
    exact h4

/-- A save that nobody disturbs writes its blob, if it can be made and the slot takes it. -/
theorem run_save_write (me : Actor) {s : Shared σ M} {model : M}
    (hform : ∃ body, c.codec.encode model = .ok body)
    (hwrite : ∀ blob, (c.slot.write blob s.slot).1 = .ok ()) :
    ∃ h blob r, Snapshot.encode c.codec h model c.level = .ok blob ∧
      (run (Save.next c me) (.encode model, s) (List.replicate 6 {})).map
          (fun x => (x.1, x.2.slot, x.2.current, x.2.writeLane)) =
        some (.done (.ok (some r)), (c.slot.write blob s.slot).2, some model, none) := by
  obtain ⟨body, hbody⟩ := hform
  obtain ⟨blob, hblob⟩ : ∃ blob, Snapshot.encode c.codec
      { modelVersion := c.modelVersion, generation := s.generation + 1, savedAt := 0 } model c.level =
        .ok blob := by
    simp only [Snapshot.encode, hbody]
    exact ⟨_, rfl⟩
  -- the slot takes the blob, whatever it is
  have hslot : c.slot.write blob s.slot = (.ok (), (c.slot.write blob s.slot).2) := by
    rw [← hwrite blob]
  refine ⟨_, blob, ⟨{ modelVersion := c.modelVersion, generation := s.generation + 1, savedAt := 0 },
    blob.length⟩, hblob, ?_⟩
  simp only [List.replicate, run_cons, run_nil, Save.next, Save.step, hblob, Outside.compressed,
    Outside.change, Option.bind_some]
  rw [hslot]
  simp only [Option.bind_some, Option.map_some]

/-- **A save on its own.** A save that nobody disturbs, of a model that can be written, leaves it in the
slot and in memory. -/
theorem run_save (me : Actor) {s : Shared σ M} {model : M} (hfree : s.writeLane = none)
    (hcurrent : s.holder.current = some model) (hform : ∃ body, c.codec.encode model = .ok body)
    (hwrite : ∀ blob, (c.slot.write blob s.slot).1 = .ok ()) :
    ∃ n h blob r, Snapshot.encode c.codec h model c.level = .ok blob ∧
      (run (Save.next c me) (.enter, s) (List.replicate n {})).map
          (fun x => (x.1, x.2.slot, x.2.current, x.2.writeLane)) =
        some (.done (.ok (some r)), (c.slot.write blob s.slot).2, some model, none) := by
  obtain ⟨n, s₁, h₁, hslot⟩ := run_save_encode (c := c) me hfree hcurrent
  obtain ⟨h, blob, r, hblob, h₂⟩ := run_save_write (c := c) me (s := s₁) hform
    (by rw [hslot]; exact hwrite)
  refine ⟨n + 6, h, blob, r, hblob, ?_⟩
  rw [← List.replicate_append_replicate, run_append, h₁, Option.bind_some, h₂, hslot]

/-! ### A cache of texts -/

/-- A cache of texts on a slot in memory. -/
def textSetup : Setup MemorySlot Value where
  slot := MemorySlot.slot "memory"
  codec := (Layout.mk .string []).codec
  modelVersion := 1
  level := 3
  timing := {}
  flushOnShutdown := true
  sink := .recording

/-- A cache of texts that has just been opened, on a slot with a blob that means nothing. -/
def textStart : Machine MemorySlot Value :=
  .start { blob := some [0] } { current := some (.string "a") } {}

/-- A cache of texts that has just been opened, on an empty slot. -/
def blankStart : Machine MemorySlot Value := .start {} { current := some (.string "a") } {}

end SnapStore.Cache
