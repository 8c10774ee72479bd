import SnapStore.Cache.Machine

namespace SnapStore.Cache

/-!
# What a step can do

Loads, saves and invalidations are the only ones to touch the slot and the snapshot in memory.  Callers
and the writer carry them out in the same way, so that what follows is about their activities and not
about who they are.

* `Activity` is what a thread is doing as far as the lanes are concerned.
* `Turn` — what a step can do to the activities and to what they share; `turn_of_step` says that this
  is all.
* `Aside` — what a step outside the lanes can do to the signal.
* `Turn.course` — what a step means for one thread.
* `place_of_answer` — where a caller comes from that is told what came of something.
-/

variable {σ M : Type}

/-! ### Activities -/

/-- Whether a load has the load lane in hand. -/
def Load.holdsLoad : Load M → Bool
  | .peek | .enter | .done _ => false
  | _ => true

/-- Whether a load has the write lane in hand. -/
def Load.holdsWrite : Load M → Bool
  | .publish .. => true
  | _ => false

/-- Whether a save has the write lane in hand. -/
def Save.holdsWrite : Save M → Bool
  | .enter | .done _ => false
  | _ => true

/-- Whether an invalidation has the load lane in hand. -/
def Invalidation.holdsLoad : Invalidation → Bool
  | .cancel | .enterLoad | .done _ => false
  | _ => true

/-- Whether an invalidation has the write lane in hand. -/
def Invalidation.holdsWrite : Invalidation → Bool
  | .cancel | .enterLoad | .enterWrite | .done _ => false
  | _ => true

/-- What a thread is doing as far as the lanes are concerned. -/
inductive Activity (M : Type)
  | rest
  | load (p : Load M)
  | save (p : Save M)
  | invalidate (p : Invalidation)

namespace Activity

/-- Whether the thread has the load lane in hand. -/
def holdsLoad : Activity M → Bool
  | .load p => p.holdsLoad
  | .invalidate p => p.holdsLoad
  | _ => false

/-- Whether the thread has the write lane in hand. -/
def holdsWrite : Activity M → Bool
  | .load p => p.holdsWrite
  | .save p => p.holdsWrite
  | .invalidate p => p.holdsWrite
  | .rest => false

/-- Whether the thread has not begun yet, or has nothing more to do. -/
def isAtEdge : Activity M → Bool
  | .rest | .load .peek | .load (.done _) | .save .enter | .save (.done _) | .invalidate .cancel |
    .invalidate (.done _) => true
  | _ => false

theorem holdsLoad_of_isAtEdge {a : Activity M} (h : a.isAtEdge = true) : a.holdsLoad = false := by
  cases a with
  | rest | save => rfl
  | load p => cases p <;> first | rfl | cases h
  | invalidate p => cases p <;> first | rfl | cases h

theorem holdsWrite_of_isAtEdge {a : Activity M} (h : a.isAtEdge = true) : a.holdsWrite = false := by
  cases a with
  | rest => rfl
  | load p => cases p <;> first | rfl | cases h
  | save p => cases p <;> first | rfl | cases h
  | invalidate p => cases p <;> first | rfl | cases h

end Activity

/-- What a caller is doing as far as the lanes are concerned. -/
def Caller.activity : Caller M → Activity M
  | .loading p => .load p
  | .saving p => .save p
  | .invalidating p => .invalidate p
  | _ => .rest

theorem Caller.eq_of_activity {q : Caller M} {p : Invalidation} (h : q.activity = .invalidate p) :
    q = .invalidating p := by
  cases q <;> cases h
  rfl

theorem Caller.eq_saving_of_activity {q : Caller M} {p : Save M} (h : q.activity = .save p) :
    q = .saving p := by
  cases q <;> cases h
  rfl

/-- What the writer is doing as far as the lanes are concerned. -/
def Writer.activity : Writer M → Activity M
  | .saving _ p => .save p
  | _ => .rest

namespace Machine

/-- What a thread is doing as far as the lanes are concerned. -/
def activity (m : Machine σ M) : Actor → Activity M
  | .writer => m.writer.activity
  | .caller i => (m.callers i).activity

@[simp] theorem callers_move_self (m : Machine σ M) (i : ThreadId) (q : Caller M) (s : Shared σ M) :
    (m.move i q s).callers i = q := goTo_self ..

@[simp] theorem activity_move_self (m : Machine σ M) (i : ThreadId) (q : Caller M) (s : Shared σ M) :
    (m.move i q s).activity (.caller i) = q.activity := by
  simp only [activity, move, goTo_self]

theorem activity_move_of_ne (m : Machine σ M) {i : ThreadId} (q : Caller M) (s : Shared σ M) {a : Actor}
    (h : a ≠ .caller i) : (m.move i q s).activity a = m.activity a := by
  cases a with
  | writer => rfl
  | caller j =>
    have hj : j ≠ i := fun hj => h (by rw [hj])
    simp only [activity, move, goTo_of_ne m.callers q hj]

/-- A caller that begins something has nothing in hand. -/
theorem isAtEdge_begin (m : Machine σ M) {i : ThreadId} {last : Option (Answer M)}
    (was : m.callers i = .outside last) (call : Call) :
    (m.activity (.caller i)).isAtEdge = true ∧
      ((m.move i (.start call) m.shared).activity (.caller i)).isAtEdge = true := by
  refine ⟨?_, ?_⟩
  · simp only [activity, was]
    rfl
  · rw [activity_move_self]
    cases call <;> rfl

/-- The label of a step of a thread. -/
def Label.of (me : Actor) (o : Outside) : Label σ M :=
  match me with
  | .writer => .writer o
  | .caller i => .caller i o

theorem Label.of_inj {a b : Actor} {o o' : Outside} (h : (of a o : Label σ M) = of b o') : a = b := by
  cases a <;> cases b <;> cases h <;> rfl

end Machine

/-! ### What a step can do -/

/-- The holder and the parts that only loads, saves and invalidations change are the same. -/
structure Shared.SameCore (s s' : Shared σ M) : Prop where
  slot : s'.slot = s.slot
  holder : s'.holder = s.holder
  current : s'.current = s.current
  loadLane : s'.loadLane = s.loadLane
  writeLane : s'.writeLane = s.writeLane
  generation : s'.generation = s.generation
  seeded : s'.seeded = s.seeded
  knownBad : s'.knownBad = s.knownBad

theorem Shared.sameCore (s : Shared σ M) (reports : Reports) (signal : Flush.Signal) (stats : Stats)
    (hasHandle : Bool) : s.SameCore { s with reports, signal, stats, hasHandle } :=
  ⟨rfl, rfl, rfl, rfl, rfl, rfl, rfl, rfl⟩

/-- What a step outside the lanes can do to the signal, and what the thread is doing after it. -/
inductive Aside (c : Setup σ M) (m m' : Machine σ M) : Actor → Outside → Prop
  | still (me : Actor) (o : Outside) (signal : m'.shared.signal = m.shared.signal)
      (now : m'.activity me = .rest) : Aside c m m' me o
  | request (i : ThreadId) (o : Outside) (reading : Nat) (was : m.callers i = .marking reading)
      (signal : m'.shared.signal = (m.shared.signal.request reading).2)
      (now : m'.activity (.caller i) = .rest) : Aside c m m' (.caller i) o
  | close (i : ThreadId) (o : Outside) (was : m.callers i = .closing)
      (signal : m'.shared.signal = m.shared.signal.close)
      (now : m'.activity (.caller i) = .rest) : Aside c m m' (.caller i) o
  | decide (o : Outside) (d : Flush.Decision) (was : m.writer = .ready)
      (signal : m.shared.signal.decide? c.timing o.now = some (d, m'.shared.signal))
      (now : m'.writer = .decided c.flushOnShutdown d) : Aside c m m' .writer o
  | finish (o : Outside) (d : Flush.Decision) (was : m.writer = .finishing d)
      (signal : m'.shared.signal = m.shared.signal.finish)
      (now : m'.activity .writer = .rest) : Aside c m m' .writer o

/-- What a step can do to the activities and to what they share. -/
inductive Turn (c : Setup σ M) (m m' : Machine σ M) : Machine.Label σ M → Prop
  | load (me : Actor) (o : Outside) (p p' : Load M) (was : m.activity me = .load p)
      (now : m'.activity me = .load p') (others : ∀ a, a ≠ me → m'.activity a = m.activity a)
      (step : p.step c me o m.shared = some (p', m'.shared)) : Turn c m m' (.of me o)
  | save (me : Actor) (o : Outside) (p p' : Save M) (was : m.activity me = .save p)
      (now : m'.activity me = .save p') (others : ∀ a, a ≠ me → m'.activity a = m.activity a)
      (step : p.step c me o m.shared = some (p', m'.shared)) : Turn c m m' (.of me o)
  | invalidate (me : Actor) (o : Outside) (p p' : Invalidation) (was : m.activity me = .invalidate p)
      (now : m'.activity me = .invalidate p') (others : ∀ a, a ≠ me → m'.activity a = m.activity a)
      (step : p.step c me o m.shared = some (p', m'.shared)) : Turn c m m' (.of me o)
  | /-- A caller begins something. -/ begin (i : ThreadId) (call : Call)
      (last : Option (Answer M)) (was : m.callers i = .outside last)
      (eq : m' = m.move i (.start call) m.shared) : Turn c m m' (.call i call)
  | /-- A thread goes on outside the lanes. -/ edge (me : Actor) (o : Outside)
      (was : (m.activity me).isAtEdge = true) (others : ∀ a, a ≠ me → m'.activity a = m.activity a)
      (core : m.shared.SameCore m'.shared) (aside : Aside c m m' me o) : Turn c m m' (.of me o)
  | /-- The host changes the holder. -/ host (h : Holder M) (same : m'.activity = m.activity)
      (shared_eq : m'.shared = { m.shared with holder := h }) : Turn c m m' (.host h)
  | stranger (slot : σ) (same : m'.activity = m.activity)
      (shared_eq : m'.shared = { m.shared with slot }) : Turn c m m' (.stranger slot)

variable {c : Setup σ M} {m m' : Machine σ M}

/-- A thread that has gone aside stands outside the lanes. -/
theorem Aside.isAtEdge {me : Actor} {o : Outside} (h : Aside c m m' me o) :
    (m'.activity me).isAtEdge = true := by
  cases h with
  | still me o signal now => rw [now]; rfl
  | request i o reading was signal now => rw [now]; rfl
  | close i o was signal now => rw [now]; rfl
  | finish o d was signal now => rw [now]; rfl
  | decide o d was signal now =>
    simp only [Machine.activity, now]
    cases d with
    | flush => rfl
    | shutdown pending =>
      simp only [Writer.decided]
      split <;> rfl

theorem Aside.activity_eq_rest {i : ThreadId} {o : Outside} (h : Aside c m m' (.caller i) o) :
    m'.activity (.caller i) = .rest := by
  cases h with
  | still _ _ signal now | request _ _ _ was signal now | close _ _ was signal now => exact now

/-- A caller that goes on outside the lanes and leaves the signal alone. -/
private theorem edge_of_move {i : ThreadId} {o : Outside} {q : Caller M} {s : Shared σ M}
    (was : (m.callers i).activity.isAtEdge = true) (now : q.activity = .rest)
    (core : m.shared.SameCore s) (signal : s.signal = m.shared.signal) :
    Turn c m (m.move i q s) (.of (.caller i) o) :=
  .edge (.caller i) o was (fun _ h => Machine.activity_move_of_ne m q s h) core
    (.still (.caller i) o signal (by rw [Machine.activity_move_self]; exact now))

private theorem turn_of_stepCaller {i : ThreadId} {o : Outside} (h : m.stepCaller c i o = some m') :
    Turn c m m' (.of (.caller i) o) := by
  have hself (q : Caller M) (s : Shared σ M) : (m.move i q s).activity (.caller i) = q.activity :=
    Machine.activity_move_self ..
  have hothers (q : Caller M) (s : Shared σ M) (a : Actor) (ha : a ≠ .caller i) :
      (m.move i q s).activity a = m.activity a := Machine.activity_move_of_ne m q s ha
  cases hi : m.callers i <;> simp only [Machine.stepCaller, hi] at h
  case outside last => cases h
  case loading p =>
    cases p with
    | done result =>
      cases h
      exact edge_of_move (by rw [hi]; rfl) rfl (Shared.sameCore _ _ _ _ _) rfl
    | _ =>
      obtain ⟨⟨p', s⟩, hp, rfl⟩ := Option.map_eq_some_iff.mp h
      exact .load (.caller i) o _ p' (by simp only [Machine.activity, hi]; rfl) (hself ..)
        (hothers _ s) hp
  case saving p =>
    cases p with
    | done result =>
      cases h
      refine edge_of_move (by rw [hi]; rfl) rfl ?_ ?_
      · cases result <;> exact Shared.sameCore _ _ _ _ _
      · cases result <;> rfl
    | _ =>
      obtain ⟨⟨p', s⟩, hp, rfl⟩ := Option.map_eq_some_iff.mp h
      exact .save (.caller i) o _ p' (by simp only [Machine.activity, hi]; rfl) (hself ..)
        (hothers _ s) hp
  case invalidating p =>
    cases p with
    | done result =>
      cases h
      exact edge_of_move (by rw [hi]; rfl) rfl (Shared.sameCore _ _ _ _ _) rfl
    | _ =>
      obtain ⟨⟨p', s⟩, hp, rfl⟩ := Option.map_eq_some_iff.mp h
      exact .invalidate (.caller i) o _ p' (by simp only [Machine.activity, hi]; rfl) (hself ..)
        (hothers _ s) hp
  -- everything else happens outside the lanes
  all_goals have was : (m.callers i).activity.isAtEdge = true := by rw [hi]; rfl
  case requesting | timing | merging | awaiting | counting =>
    cases h
    exact edge_of_move was rfl (Shared.sameCore _ _ _ _ _) rfl
  case marking reading =>
    cases h
    refine .edge (.caller i) o was (hothers _ _) (Shared.sameCore _ _ _ _ _)
      (.request i o reading hi rfl ?_)
    rw [hself]
    split <;> rfl
  case checking deadline =>
    split at h
    · cases h
      exact edge_of_move was rfl (Shared.sameCore _ _ _ _ _) rfl
    · split at h <;> cases h
      exact edge_of_move was rfl (Shared.sameCore _ _ _ _ _) rfl
  case taking =>
    cases h
    exact edge_of_move was (by split <;> rfl) (Shared.sameCore _ _ _ _ _) rfl
  case closing =>
    cases h
    exact .edge (.caller i) o was (hothers _ _) (Shared.sameCore _ _ _ _ _)
      (.close i o hi rfl (hself ..))
  case joining =>
    split at h <;> cases h
    exact edge_of_move was rfl (Shared.sameCore _ _ _ _ _) rfl

private theorem activity_of_ne_writer {w : Writer M} {s : Shared σ M} {a : Actor} (h : a ≠ .writer) :
    ({ m with writer := w, shared := s } : Machine σ M).activity a = m.activity a := by
  cases a with
  | writer => exact absurd rfl h
  | caller i => rfl

private theorem turn_of_stepWriter {o : Outside} (h : m.stepWriter c o = some m') :
    Turn c m m' (.of .writer o) := by
  cases hw : m.writer <;> simp only [Machine.stepWriter, hw] at h
  -- only the steps of its saves concern the lanes
  case saving d p =>
    have was : m.activity .writer = .save p := by simp only [Machine.activity, hw]; rfl
    cases p with
    | done result =>
      refine .edge .writer o (by rw [was]; rfl) ?_ ?_ (.still .writer o ?_ ?_)
      all_goals cases result <;> cases h
      · exact fun _ ha => activity_of_ne_writer ha
      · exact fun _ ha => activity_of_ne_writer ha
      · exact Shared.sameCore _ _ _ _ _
      · exact Shared.sameCore _ _ _ _ _
      all_goals rfl
    | _ =>
      obtain ⟨⟨p', s⟩, hp, rfl⟩ := Option.map_eq_some_iff.mp h
      exact .save .writer o _ p' was rfl (fun _ ha => activity_of_ne_writer ha) hp
  case stopped => cases h
  all_goals have was : (m.activity .writer).isAtEdge = true := by simp only [Machine.activity, hw]; rfl
  case ready =>
    obtain ⟨⟨d, signal⟩, hd, rfl⟩ := Option.map_eq_some_iff.mp h
    exact .edge .writer o was (fun _ ha => activity_of_ne_writer ha) (Shared.sameCore _ _ _ _ _)
      (.decide o d hw hd rfl)
  case complaining d e =>
    cases h
    exact .edge .writer o was (fun _ ha => activity_of_ne_writer ha) (Shared.sameCore _ _ _ _ _)
      (.still .writer o rfl rfl)
  case finishing d =>
    cases h
    refine .edge .writer o was (fun _ ha => activity_of_ne_writer ha) (Shared.sameCore _ _ _ _ _)
      (.finish o d hw rfl ?_)
    cases d <;> rfl

/-- **One step.** A step is one of a load, a save or an invalidation, or leaves the lanes and what they
guard alone, or comes from elsewhere. -/
theorem turn_of_step {l : Machine.Label σ M} (h : Machine.step c l m = some m') : Turn c m m' l := by
  cases l with
  | call i call =>
    simp only [Machine.step] at h
    split at h
    · rename_i last hi
      cases h
      exact .begin i call last hi rfl
    · cases h
  | caller i o => exact turn_of_stepCaller h
  | writer o => exact turn_of_stepWriter h
  | host holder =>
    cases h
    exact .host holder rfl rfl
  | stranger slot =>
    cases h
    exact .stranger slot rfl rfl

/-- What a step means for one thread. -/
inductive Course (c : Setup σ M) (m m' : Machine σ M) (l : Machine.Label σ M) (a : Actor) : Prop
  | same (eq : m'.activity a = m.activity a)
  | load (o : Outside) (p p' : Load M) (label : l = .of a o) (was : m.activity a = .load p)
      (now : m'.activity a = .load p') (step : p.step c a o m.shared = some (p', m'.shared))
  | save (o : Outside) (p p' : Save M) (label : l = .of a o) (was : m.activity a = .save p)
      (now : m'.activity a = .save p') (step : p.step c a o m.shared = some (p', m'.shared))
  | invalidate (o : Outside) (p p' : Invalidation) (label : l = .of a o)
      (was : m.activity a = .invalidate p) (now : m'.activity a = .invalidate p')
      (step : p.step c a o m.shared = some (p', m'.shared))
  | begin (i : ThreadId) (call : Call) (label : l = .call i call) (was : m.activity a = .rest)
      (now : m'.activity a = (Caller.start call : Caller M).activity)
  | edge (o : Outside) (label : l = .of a o) (was : (m.activity a).isAtEdge = true)
      (aside : Aside c m m' a o)

/-- **One thread.** A thread takes the step itself or goes on with what it was doing. -/
theorem Turn.course {l : Machine.Label σ M} (turn : Turn c m m' l) (a : Actor) : Course c m m' l a := by
  cases turn with
  | load me o p p' was now others step =>
    by_cases ha : a = me
    · subst ha
      exact .load o p p' rfl was now step
    · exact .same (others a ha)
  | save me o p p' was now others step =>
    by_cases ha : a = me
    · subst ha
      exact .save o p p' rfl was now step
    · exact .same (others a ha)
  | invalidate me o p p' was now others step =>
    by_cases ha : a = me
    · subst ha
      exact .invalidate o p p' rfl was now step
    · exact .same (others a ha)
  | begin i call last was eq =>
    subst eq
    by_cases ha : a = .caller i
    · subst ha
      refine .begin i call rfl ?_ (Machine.activity_move_self ..)
      simp only [Machine.activity, was]
      rfl
    · exact .same (Machine.activity_move_of_ne m _ _ ha)
  | edge me o was others core aside =>
    by_cases ha : a = me
    · subst ha
      exact .edge o rfl was aside
    · exact .same (others a ha)
  | host holder same shared_eq => exact .same (by rw [same])
  | stranger slot same shared_eq => exact .same (by rw [same])

/-- A step of a thread leaves it to the others what they are doing. -/
theorem Turn.others {me : Actor} {o : Outside} (turn : Turn c m m' (.of me o)) {a : Actor} (ha : a ≠ me) :
    m'.activity a = m.activity a := by
  cases turn.course a with
  | same eq => exact eq
  | load _ _ _ label | save _ _ _ label | invalidate _ _ _ label | edge _ label =>
    exact absurd (Machine.Label.of_inj label).symm ha
  | begin i call label => cases me <;> cases label

/-! ### What callers are told -/

variable {l : Machine.Label σ M} {o : Outside}

/-- Where a caller stands that is about to be told what came of a load, a save or an invalidation. -/
def Answer.place? : Answer M → Option (Caller M)
  | .loaded result => some (.loading (.done result))
  | .saved result => some (.saving (.done result))
  | .invalidated result => some (.invalidating (.done result))
  | _ => none

/-- A caller moves nobody but itself, and is told what came of something only at its end. -/
theorem exists_move_of_stepCaller {i : ThreadId} (h : m.stepCaller c i o = some m') :
    ∃ q s, m' = m.move i q s ∧ ∀ a, q = .done a → ∀ p, a.place? = some p → m.callers i = p := by
  cases hi : m.callers i <;> simp only [Machine.stepCaller, hi] at h
  case outside last => cases h
  -- the ends of loads, saves and invalidations are where their results are told
  case loading p =>
    cases p with
    | done result =>
      cases h
      exact ⟨_, _, rfl, fun a ha p hp => by cases ha; cases hp; rfl⟩
    | _ =>
      obtain ⟨⟨p', s⟩, -, rfl⟩ := Option.map_eq_some_iff.mp h
      exact ⟨_, _, rfl, fun a ha => by cases ha⟩
  case saving p =>
    cases p with
    | done result =>
      cases h
      exact ⟨_, _, rfl, fun a ha p hp => by cases ha; cases hp; rfl⟩
    | _ =>
      obtain ⟨⟨p', s⟩, -, rfl⟩ := Option.map_eq_some_iff.mp h
      exact ⟨_, _, rfl, fun a ha => by cases ha⟩
  case invalidating p =>
    cases p with
    | done result =>
      cases h
      exact ⟨_, _, rfl, fun a ha p hp => by cases ha; cases hp; rfl⟩
    | _ =>
      obtain ⟨⟨p', s⟩, -, rfl⟩ := Option.map_eq_some_iff.mp h
      exact ⟨_, _, rfl, fun a ha => by cases ha⟩
  -- from everywhere else a caller goes on to another place, or is told something else
  case requesting | timing | awaiting | closing =>
    cases h
    exact ⟨_, _, rfl, fun a ha => by cases ha⟩
  case merging | counting =>
    cases h
    exact ⟨_, _, rfl, fun a ha p hp => by cases ha; cases hp⟩
  case marking reading =>
    cases h
    refine ⟨_, _, rfl, ?_⟩
    intro a ha p hp
    split at ha <;> cases ha
    cases hp
  case taking =>
    cases h
    refine ⟨_, _, rfl, ?_⟩
    intro a ha p hp
    split at ha <;> cases ha
    cases hp
  case checking deadline =>
    split at h
    · cases h
      exact ⟨_, _, rfl, fun a ha p hp => by cases ha; cases hp⟩
    · split at h <;> cases h
      exact ⟨_, _, rfl, fun a ha p hp => by cases ha; cases hp⟩
  case joining =>
    split at h <;> cases h
    exact ⟨_, _, rfl, fun a ha p hp => by cases ha; cases hp⟩

theorem callers_of_stepWriter (h : m.stepWriter c o = some m') : m'.callers = m.callers := by
  unfold Machine.stepWriter at h
  simp only at h
  split at h
  case h_1 | h_4 =>
    obtain ⟨-, -, rfl⟩ := Option.map_eq_some_iff.mp h
    rfl
  all_goals cases h <;> rfl

/-- A caller that has been told what came of something has been told before, or has just come to its
end. -/
theorem place_of_answer {i : ThreadId} {a : Answer M} {p : Caller M} (h : m.step c l = some m')
    (ha : m'.callers i = .done a) (hp : a.place? = some p) :
    m.callers i = .done a ∨ m.callers i = p := by
  cases l with
  | call j call =>
    simp only [Machine.step] at h
    split at h <;> cases h
    by_cases hi : i = j
    · rw [hi, Machine.callers_move_self] at ha
      cases call <;> cases ha
    · exact .inl (by rw [← ha]; exact (goTo_of_ne m.callers _ hi).symm)
  | caller j o =>
    obtain ⟨q, s, rfl, hq⟩ := exists_move_of_stepCaller (show m.stepCaller c j o = some m' from h)
    by_cases hi : i = j
    · subst hi
      rw [Machine.callers_move_self] at ha
      exact .inr (hq a ha p hp)
    · exact .inl (by rw [← ha]; exact (goTo_of_ne m.callers _ hi).symm)
  | writer o =>
    refine .inl (by rw [← ha, callers_of_stepWriter h])
  | host holder =>
    cases h
    exact .inl ha
  | stranger slot =>
    cases h
    exact .inl ha

end SnapStore.Cache
