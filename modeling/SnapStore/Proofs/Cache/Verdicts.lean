import SnapStore.Proofs.Cache.Agreement
import SnapStore.Proofs.Snapshot.Outcomes

namespace SnapStore

/-!
# What loads make of the slot

A load that cannot use what it finds in the slot says so once, and remembers it, so that later loads do not
read the same blob again.  An inquiry keeps what loads have found and what has been reported; it never
decides which steps there are.

* `Verdict` is why a load could not use the slot; `Inquiry` is a cache with all verdicts and reports.
* `reports_of_step` and `storageLoads_of_step` — what a step reports, and when it counts a decoded blob.
* `View` is what matters of that; `View.Step` says what a step can do to it, and `Inquiry.view_step` that
  this is all.
* `Inquiry.view_induction` — what every such step keeps holds after every run.
-/

/-! ### Trouble with a blob -/

/-- Whether a trouble is with the blob, and not with the slot. -/
def Trouble.isWithBlob : Trouble → Bool
  | .corrupted | .versionMismatch => true
  | _ => false

/-- Whether an error in a load means trouble with the blob. -/
def CacheError.blamesBlob (e : CacheError) : Bool := (Trouble.ofLoadError e).isWithBlob

theorem CacheError.isIo_of_blamesBlob {e : CacheError} (h : e.blamesBlob = true) : e.isIo = false := by
  cases e <;> first | rfl | cases h

/-- What stops the decoding of a blob is trouble with the blob. -/
theorem Snapshot.blamesBlob_of_decode {M : Type} {codec : Codec M} {expected : UInt32} {blob : Bytes}
    {e : CacheError} (h : decode codec expected blob = .error e) : e.blamesBlob = true := by
  have houtcome := outcome_decode codec expected blob
  cases hread : readHeader blob with
  | error e' =>
    rw [hread] at houtcome
    obtain ⟨⟨why, rfl⟩, hdecode⟩ := houtcome
    rw [h] at hdecode
    cases hdecode
    rfl
  | ok header =>
    rw [hread, h] at houtcome
    simp only [Outcome] at houtcome
    split at houtcome
    · cases houtcome
      rfl
    · split at houtcome
      · cases houtcome
        rfl
      · rcases houtcome with ⟨_, hdecode⟩ | ⟨why, hdecode⟩ <;> cases hdecode
        rfl

/-- Reports several diagnostics. -/
def Reports.addAll (sink : Sink) (r : Reports) (ds : List Diagnostic) : Reports :=
  ds.foldl (fun r d => r.add sink d) r

theorem Reports.addAll_append (sink : Sink) (r : Reports) (ds es : List Diagnostic) :
    r.addAll sink (ds ++ es) = (r.addAll sink ds).addAll sink es := List.foldl_append

namespace Cache

variable {σ M : Type}

/-! ### Verdicts and reports -/

/-- Whether it removes the blob. -/
def Deed.isRemoval : Deed M → Bool
  | .removed => true
  | .saved .. => false

/-- Why a load could not use the slot. -/
inductive Verdict (M : Type)
  | /-- The blob that it has read does not decode. -/ condemned (blob : Bytes) (e : CacheError)
  | /-- It could not read the slot, after the last deed. -/ unread (last : Option (Deed M)) (e : CacheError)

namespace Verdict

/-- The error of a verdict. -/
def error : Verdict M → CacheError
  | .condemned _ e | .unread _ e => e

/-- Whether a slot that cannot be read blames the blob, although it is one that the cache has saved. -/
def isSlander : Verdict M → Bool
  | .unread (some (.saved ..)) e => e.blamesBlob
  | _ => false

end Verdict

/-- Why the next step of a load finds that it cannot use the slot. -/
def Load.verdict? (c : Setup σ M) (o : Outside) (last : Option (Deed M)) : Load M → Option (Verdict M)
  | .receive found =>
    match o.outcome found with
    | .error e => some (.unread last e)
    | .ok none => none
    | .ok (some blob) =>
      match Snapshot.decode c.codec c.modelVersion blob with
      | .ok _ => none
      | .error e => some (.condemned blob e)
  | _ => none

/-- Why the next step of a thread finds that it cannot use the slot. -/
def Activity.verdict? (c : Setup σ M) (o : Outside) (last : Option (Deed M)) :
    Activity M → Option (Verdict M)
  | .load p => p.verdict? c o last
  | _ => none

/-- Whether the next step of a load decodes a blob. -/
def Load.decodes (c : Setup σ M) (o : Outside) : Load M → Bool
  | .receive found =>
    match o.outcome found with
    | .ok (some blob) => (Snapshot.decode c.codec c.modelVersion blob).isOk
    | _ => false
  | _ => false

/-- Whether the next step of a thread decodes a blob. -/
def Activity.decodes (c : Setup σ M) (o : Outside) : Activity M → Bool
  | .load p => p.decodes c o
  | _ => false

/-- What a caller is about to report. -/
def Caller.report? (c : Setup σ M) : Caller M → Option Diagnostic
  | .loading (.complain e) => some (.ofLoadError c.slot.location e)
  | _ => none

/-- What the writer is about to report. -/
def Writer.report? (c : Setup σ M) : Writer M → Option Diagnostic
  | .complaining _ e => some (.ofSaveError c.slot.location e)
  | _ => none

namespace Machine

/-- Why a step finds that the slot cannot be used. -/
def verdict? (c : Setup σ M) (last : Option (Deed M)) (m : Machine σ M) : Label σ M → Option (Verdict M)
  | .caller i o => (m.activity (.caller i)).verdict? c o last
  | .writer o => (m.activity .writer).verdict? c o last
  | _ => none

/-- Whether a step decodes a blob. -/
def decodes (c : Setup σ M) (m : Machine σ M) : Label σ M → Bool
  | .caller i o => (m.activity (.caller i)).decodes c o
  | .writer o => (m.activity .writer).decodes c o
  | _ => false

/-- What a step reports. -/
def report? (c : Setup σ M) (m : Machine σ M) : Label σ M → Option Diagnostic
  | .caller i _ => (m.callers i).report? c
  | .writer _ => m.writer.report? c
  | _ => none

end Machine

/-! ### What is counted -/

/-- How often the blob has been removed. -/
def removals (deeds : List (Deed M)) : Nat := deeds.countP Deed.isRemoval

/-- How often a load could not use the slot because of the blob. -/
def blames (verdicts : List (Verdict M)) : Nat := verdicts.countP fun v => v.error.blamesBlob

/-- How often a slot that cannot be read has blamed a blob that the cache has saved. -/
def slanders (verdicts : List (Verdict M)) : Nat := verdicts.countP Verdict.isSlander

/-- How often trouble with the blob has been reported. -/
def complaints (reported : List Diagnostic) : Nat := reported.countP fun d => d.trouble.isWithBlob

@[simp] theorem removals_concat (deeds : List (Deed M)) (d : Deed M) :
    removals (deeds ++ [d]) = removals deeds + d.isRemoval.toNat := by
  cases hd : d.isRemoval <;> simp [removals, List.countP_append, hd]

@[simp] theorem blames_concat (verdicts : List (Verdict M)) (v : Verdict M) :
    blames (verdicts ++ [v]) = blames verdicts + v.error.blamesBlob.toNat := by
  cases hv : v.error.blamesBlob <;> simp [blames, List.countP_append, hv]

@[simp] theorem slanders_concat (verdicts : List (Verdict M)) (v : Verdict M) :
    slanders (verdicts ++ [v]) = slanders verdicts + v.isSlander.toNat := by
  cases hv : v.isSlander <;> simp [slanders, List.countP_append, hv]

@[simp] theorem complaints_nil : complaints [] = 0 := rfl

@[simp] theorem complaints_ofLoadError (location : String) (e : CacheError) :
    complaints [.ofLoadError location e] = e.blamesBlob.toNat := by
  cases e <;> rfl

theorem complaints_append (ds es : List Diagnostic) :
    complaints (ds ++ es) = complaints ds + complaints es := List.countP_append

/-! ### Inquiries -/

/-- A cache with what has been done to its slot, why loads could not use it, and what has been reported. -/
structure Inquiry (σ M : Type) where
  machine : Machine σ M
  deeds : List (Deed M) := []
  verdicts : List (Verdict M) := []
  reported : List Diagnostic := []

namespace Inquiry

/-- One step of one thread, or a change from elsewhere. -/
def step (c : Setup σ M) (l : Machine.Label σ M) (w : Inquiry σ M) : Option (Inquiry σ M) :=
  (w.machine.step c l).map fun machine => {
    machine
    deeds := w.deeds ++ (w.machine.deed? c l).toList
    verdicts := w.verdicts ++ (w.machine.verdict? c w.deeds.getLast? l).toList
    reported := w.reported ++ (w.machine.report? c l).toList }

/-- The inquiry only looks on: every run of the cache is a run of the inquiry. -/
theorem exists_run {c : Setup σ M} {w : Inquiry σ M} {ls : List (Machine.Label σ M)} {m : Machine σ M}
    (h : run (Machine.step c) w.machine ls = some m) :
    ∃ v, run (Inquiry.step c) w ls = some v ∧ v.machine = m := by
  refine exists_run_of_run (fun l w => ?_) h
  rw [Inquiry.step, Option.map_map]
  exact Option.map_id' ..

/-- A cache that has just been opened. -/
def start (slot : σ) (holder : Holder M) (reports : Reports) : Inquiry σ M where
  machine := .start slot holder reports

/-- What has been done to the slot, without the rest. -/
def chronicle (w : Inquiry σ M) : Chronicle σ M := ⟨w.machine, w.deeds⟩

variable {c : Setup σ M} {w v : Inquiry σ M} {l : Machine.Label σ M}

theorem chronicle_step (h : w.step c l = some v) : w.chronicle.step c l = some v.chronicle := by
  obtain ⟨m, hm, rfl⟩ := Option.map_eq_some_iff.mp h
  exact Option.map_eq_some_iff.mpr ⟨m, hm, rfl⟩

end Inquiry

/-! ### What a step reports and counts -/

section Tells

variable {c : Setup σ M} {m m' : Machine σ M} {me : Actor} {o : Outside} {s s' : Shared σ M}
  {l : Machine.Label σ M}

theorem Machine.decodes_of (me : Actor) (o : Outside) :
    m.decodes c (.of me o) = (m.activity me).decodes c o := by
  cases me <;> rfl

theorem Machine.verdict?_of (last : Option (Deed M)) (me : Actor) (o : Outside) :
    m.verdict? c last (.of me o) = (m.activity me).verdict? c o last := by
  cases me <;> rfl

/-- A load reports its error, and counts what it has decoded. -/
theorem Load.tells {p p' : Load M} (h : p.step c me o s = some (p', s')) :
    s'.reports = s.reports.addAll c.sink ((Caller.loading p).report? c).toList ∧
      s'.stats.storageLoads = s.stats.storageLoads + (p.decodes c o).toNat := by
  cases p with
  | receive found =>
    simp only [Load.step] at h
    split at h <;> rename_i hfound
    · cases h
      simp [decodes, hfound, Caller.report?, Reports.addAll]
    · cases h
      simp [decodes, hfound, Caller.report?, Reports.addAll]
    · split at h <;> rename_i hdecode <;> cases h <;>
        simp [decodes, hfound, hdecode, Caller.report?, Reports.addAll, Stats.loaded, Except.isOk,
          Except.toBool]
  | fail e =>
    cases h
    split <;> exact ⟨rfl, rfl⟩
  | peek | recheck | enter | install =>
    simp only [Load.step] at h
    split at h <;> cases h <;> exact ⟨rfl, rfl⟩
  | consult | fetch | complain | publish | leave =>
    cases h
    exact ⟨rfl, rfl⟩
  | done result => cases h

theorem Save.tells {p p' : Save M} (h : p.step c me o s = some (p', s')) :
    s'.reports = s.reports ∧ s'.stats.storageLoads = s.stats.storageLoads := by
  cases p with
  | enter | capture | seed | receive | encode | write =>
    simp only [Save.step] at h
    split at h <;> cases h <;> exact ⟨rfl, rfl⟩
  | commit | publish | record | leave =>
    cases h
    exact ⟨rfl, rfl⟩
  | done result => cases h

theorem Invalidation.tells {p p' : Invalidation} (h : p.step c me o s = some (p', s')) :
    s'.reports = s.reports ∧ s'.stats.storageLoads = s.stats.storageLoads := by
  cases p with
  | enterLoad | enterWrite | remove =>
    simp only [Invalidation.step] at h
    split at h <;> cases h <;> exact ⟨rfl, rfl⟩
  | cancel | forget | absolve | leave =>
    cases h
    exact ⟨rfl, rfl⟩
  | done result => cases h

private theorem tells_of_stepCaller {i : ThreadId} (h : m.stepCaller c i o = some m') :
    m'.shared.reports = m.shared.reports.addAll c.sink ((m.callers i).report? c).toList ∧
      m'.shared.stats.storageLoads =
        m.shared.stats.storageLoads + ((m.callers i).activity.decodes c o).toNat := by
  cases hi : m.callers i <;> simp only [Machine.stepCaller, hi] at h
  case outside last => cases h
  case loading p =>
    cases p with
    | done result =>
      cases h
      exact ⟨rfl, rfl⟩
    | _ =>
      obtain ⟨⟨p', s⟩, hp, rfl⟩ := Option.map_eq_some_iff.mp h
      exact Load.tells hp
  case saving p =>
    cases p with
    | done result =>
      cases h
      cases result <;> exact ⟨rfl, rfl⟩
    | _ =>
      obtain ⟨⟨p', s⟩, hp, rfl⟩ := Option.map_eq_some_iff.mp h
      exact Save.tells hp
  case invalidating p =>
    cases p with
    | done result =>
      cases h
      exact ⟨rfl, rfl⟩
    | _ =>
      obtain ⟨⟨p', s⟩, hp, rfl⟩ := Option.map_eq_some_iff.mp h
      exact Invalidation.tells hp
  case checking deadline =>
    split at h
    · cases h
      exact ⟨rfl, rfl⟩
    · split at h <;> cases h
      exact ⟨rfl, rfl⟩
  case joining =>
    split at h <;> cases h
    exact ⟨rfl, rfl⟩
  all_goals
    cases h
    exact ⟨rfl, rfl⟩

private theorem tells_of_stepWriter (h : m.stepWriter c o = some m') :
    m'.shared.reports = m.shared.reports.addAll c.sink (m.writer.report? c).toList ∧
      m'.shared.stats.storageLoads =
        m.shared.stats.storageLoads + (m.writer.activity.decodes c o).toNat := by
  cases hw : m.writer <;> simp only [Machine.stepWriter, hw] at h
  case ready =>
    obtain ⟨⟨d, signal⟩, -, rfl⟩ := Option.map_eq_some_iff.mp h
    exact ⟨rfl, rfl⟩
  case saving d p =>
    cases p with
    | done result => cases result <;> cases h <;> exact ⟨rfl, rfl⟩
    | _ =>
      obtain ⟨⟨p', s⟩, hp, rfl⟩ := Option.map_eq_some_iff.mp h
      exact Save.tells hp
  case stopped => cases h
  all_goals
    cases h
    exact ⟨rfl, rfl⟩

private theorem tells_of_step (h : m.step c l = some m') :
    m'.shared.reports = m.shared.reports.addAll c.sink (m.report? c l).toList ∧
      m'.shared.stats.storageLoads = m.shared.stats.storageLoads + (m.decodes c l).toNat := by
  cases l with
  | call i call =>
    simp only [Machine.step] at h
    split at h <;> cases h
    exact ⟨rfl, rfl⟩
  | caller i o => exact tells_of_stepCaller h
  | writer o => exact tells_of_stepWriter h
  | host holder | stranger slot =>
    cases h
    exact ⟨rfl, rfl⟩

/-- **Reports.** The sink is given what a step reports, and nothing else. -/
theorem reports_of_step (h : m.step c l = some m') :
    m'.shared.reports = m.shared.reports.addAll c.sink (m.report? c l).toList := (tells_of_step h).1

/-- **Decoded blobs.** A step counts a blob exactly if it decodes one. -/
theorem storageLoads_of_step (h : m.step c l = some m') :
    m'.shared.stats.storageLoads = m.shared.stats.storageLoads + (m.decodes c l).toNat := (tells_of_step h).2

end Tells

/-! ### What a step means -/

/-- Whether a load has found no snapshot in memory and may go on to read the slot. -/
def Load.isAsking : Load M → Bool
  | .consult | .fetch | .receive _ => true
  | _ => false

/-- Whether a load has decoded a blob and is about to put it into memory. -/
def Load.isInstalling : Load M → Bool
  | .install .. | .publish .. => true
  | _ => false

/-- Whether a load is about to mark the blob as bad. -/
def Load.isMarking : Load M → Bool
  | .fail e => !e.isIo
  | _ => false

/-- Whether a load is about to say what it has found. -/
def Load.isPending : Load M → Bool
  | .fail _ | .complain _ | .install .. | .publish .. => true
  | _ => false

/-- Whether an invalidation has removed the blob and is about to forget everything about it. -/
def Invalidation.isClearing : Invalidation → Bool
  | .forget | .absolve => true
  | _ => false

namespace Activity

def isAsking : Activity M → Bool
  | .load p => p.isAsking
  | _ => false

def isInstalling : Activity M → Bool
  | .load p => p.isInstalling
  | _ => false

def isMarking : Activity M → Bool
  | .load p => p.isMarking
  | _ => false

def isClearing : Activity M → Bool
  | .invalidate p => p.isClearing
  | _ => false

/-- Whether a thread knows something about the slot that it has not told yet. -/
def isPending : Activity M → Bool
  | .load p => p.isPending
  | .save p => p.isCommitting
  | .invalidate p => p.isClearing
  | .rest => false

theorem isPending_of_isInstalling {a : Activity M} (h : a.isInstalling = true) : a.isPending = true := by
  cases a with
  | load p => cases p <;> first | rfl | cases h
  | _ => cases h

theorem isPending_of_isMarking {a : Activity M} (h : a.isMarking = true) : a.isPending = true := by
  cases a with
  | load p => cases p <;> first | rfl | cases h
  | _ => cases h

theorem isPending_of_isCommitting {a : Activity M} (h : a.isCommitting = true) : a.isPending = true := by
  cases a with
  | save p => exact h
  | _ => cases h

theorem isPending_of_isClearing {a : Activity M} (h : a.isClearing = true) : a.isPending = true := by
  cases a with
  | invalidate p => exact h
  | _ => cases h

/-- What is cleared is cleared with both lanes in hand. -/
theorem holds_of_isClearing {a : Activity M} (h : a.isClearing = true) :
    a.holdsLoad = true ∧ a.holdsWrite = true := by
  cases a with
  | invalidate p => cases p <;> first | exact ⟨rfl, rfl⟩ | cases h
  | _ => cases h

theorem isPending_of_isAtEdge {a : Activity M} (h : a.isAtEdge = true) :
    a.isPending = false ∧ a.isAsking = false := by
  cases a with
  | rest => exact ⟨rfl, rfl⟩
  | load p => cases p <;> first | exact ⟨rfl, rfl⟩ | cases h
  | save p => cases p <;> first | exact ⟨rfl, rfl⟩ | cases h
  | invalidate p => cases p <;> first | exact ⟨rfl, rfl⟩ | cases h

end Activity

/-- What an inquiry is about. -/
@[ext]
structure View (M : Type) where
  activity : Actor → Activity M
  /-- What the slot holds. -/
  slot : Option Bytes
  current : Option M
  knownBad : Bool
  deeds : List (Deed M)
  verdicts : List (Verdict M)
  /-- How many blobs have been decoded. -/
  loads : Nat
  /-- How often trouble with the blob has been reported. -/
  complaints : Nat

/-- A thread goes on to something else. -/
def View.move (x : View M) (me : Actor) (q : Activity M) : View M :=
  { x with activity := Function.update x.activity me q }

@[simp] theorem View.activity_move_self (x : View M) (me : Actor) (q : Activity M) :
    (x.move me q).activity me = q := Function.update_self ..

theorem View.activity_move_of_ne (x : View M) {me a : Actor} (q : Activity M) (h : a ≠ me) :
    (x.move me q).activity a = x.activity a := Function.update_of_ne h ..

/-- What holds of one thread still does, unless that thread goes on to something else. -/
theorem View.exists_move {x y : View M} {me : Actor} {q : Activity M} {P : Activity M → Prop}
    (activity : y.activity = Function.update x.activity me q) (hme : P (x.activity me) → P q)
    (h : ∃ a, P (x.activity a)) : ∃ a, P (y.activity a) := by
  obtain ⟨a, ha⟩ := h
  by_cases heq : a = me
  · refine ⟨me, ?_⟩
    rw [activity, Function.update_self]
    exact hme (heq ▸ ha)
  · refine ⟨a, ?_⟩
    rw [activity, Function.update_of_ne heq]
    exact ha

/-- What an inquiry is about, where `content` says what the slot holds. -/
def Inquiry.view (content : σ → Option Bytes) (w : Inquiry σ M) : View M where
  activity := w.machine.activity
  slot := content w.machine.shared.slot
  current := w.machine.shared.current
  knownBad := w.machine.shared.knownBad
  deeds := w.deeds
  verdicts := w.verdicts
  loads := w.machine.shared.stats.storageLoads
  complaints := Cache.complaints w.reported

/-- What a step means for the slot, for what is remembered of it, and for what is said about it. -/
inductive View.Step (c : Setup σ M) (x : View M) : View M → Prop
  | /-- Nothing of this changes. -/ same : Step c x x
  | quiet (me : Actor) (q : Activity M) (was : (x.activity me).isPending = false)
      (pending : q.isPending = false) (asking : q.isAsking = false) : Step c x (x.move me q)
  | ask (me : Actor) (was : x.activity me = .load .recheck) (empty : x.current = none) :
      Step c x (x.move me (.load .consult))
  | turn (me : Actor) (was : x.activity me = .load .consult) (good : x.knownBad = false) :
      Step c x (x.move me (.load .fetch))
  | read (me : Actor) (found : Except CacheError (Option Bytes)) (was : x.activity me = .load .fetch)
      (genuine : ∀ b, found = .ok b → b = x.slot) : Step c x (x.move me (.load (.receive found)))
  | refuse (me : Actor) (found : Except CacheError (Option Bytes)) (e : CacheError)
      (was : x.activity me = .load (.receive found)) :
      Step c x { x.move me (.load (.fail e)) with
        verdicts := x.verdicts ++ [.unread x.deeds.getLast? e] }
  | condemn (me : Actor) (blob : Bytes) (e : CacheError)
      (was : x.activity me = .load (.receive (.ok (some blob))))
      (decode : Snapshot.decode c.codec c.modelVersion blob = .error e) :
      Step c x { x.move me (.load (.fail e)) with verdicts := x.verdicts ++ [.condemned blob e] }
  | decode (me : Actor) (blob : Bytes) (h : Snapshot.Header) (model : M)
      (was : x.activity me = .load (.receive (.ok (some blob))))
      (decode : Snapshot.decode c.codec c.modelVersion blob = .ok (h, model)) :
      Step c x { x.move me (.load (.install h model)) with loads := x.loads + 1 }
  | mark (me : Actor) (e : CacheError) (was : x.activity me = .load (.fail e)) :
      Step c x { x.move me (.load (.complain e)) with knownBad := x.knownBad || !e.isIo }
  | complain (me : Actor) (e : CacheError) (was : x.activity me = .load (.complain e)) :
      Step c x { x.move me (.load (.leave none)) with
        complaints := x.complaints + e.blamesBlob.toNat }
  | install (me : Actor) (h : Snapshot.Header) (model : M)
      (was : x.activity me = .load (.install h model)) : Step c x (x.move me (.load (.publish h model)))
  | publish (me : Actor) (h : Snapshot.Header) (model : M)
      (was : x.activity me = .load (.publish h model)) :
      Step c x { x.move me (.load (.leave (some (x.current.getD model)))) with
        current := some (x.current.getD model) }
  | write (me : Actor) (model : M) (h : Snapshot.Header) (blob : Bytes) (r : SaveReport)
      (was : x.activity me = .save (.write model h blob))
      (genuine : Snapshot.decode c.codec c.modelVersion blob = .ok (h, model)) :
      Step c x { x.move me (.save (.commit model r)) with
        slot := some blob, deeds := x.deeds ++ [.saved model h blob] }
  | commit (me : Actor) (model : M) (r : SaveReport) (was : x.activity me = .save (.commit model r)) :
      Step c x { x.move me (.save (.publish model r)) with knownBad := false }
  | settle (me : Actor) (model : M) (r : SaveReport) (was : x.activity me = .save (.publish model r)) :
      Step c x { x.move me (.save (.record r)) with current := some model }
  | remove (me : Actor) (was : x.activity me = .invalidate .remove) :
      Step c x { x.move me (.invalidate .forget) with slot := none, deeds := x.deeds ++ [.removed] }
  | forget (me : Actor) (was : x.activity me = .invalidate .forget) :
      Step c x { x.move me (.invalidate .absolve) with current := none }
  | absolve (me : Actor) (was : x.activity me = .invalidate .absolve) :
      Step c x { x.move me (.invalidate (.leave (.ok ()))) with knownBad := false }

namespace Inquiry

variable {c : Setup σ M} {content : σ → Option Bytes} {valid : M → Prop} {w v : Inquiry σ M} {me : Actor}
  {o : Outside}

/-- A thread has gone on and the others have not. -/
private theorem activity_eq {q : Activity M} (now : v.machine.activity me = q)
    (others : ∀ a, a ≠ me → v.machine.activity a = w.machine.activity a) :
    v.machine.activity = Function.update w.machine.activity me q :=
  Function.eq_update_iff.mpr ⟨now, others⟩

/-- A step of a load. -/
private theorem step_of_load (hslot : c.slot.Lawful content) {p p' : Load M}
    (was : w.machine.activity me = .load p) (now : v.machine.activity me = .load p')
    (others : ∀ a, a ≠ me → v.machine.activity a = w.machine.activity a)
    (step : p.step c me o w.machine.shared = some (p', v.machine.shared)) (hdeeds : v.deeds = w.deeds)
    (hverdicts : v.verdicts = w.verdicts ++ (p.verdict? c o w.deeds.getLast?).toList)
    (hcomplaints : complaints v.reported = complaints w.reported +
      complaints ((Caller.loading p).report? c).toList) :
    View.Step c (w.view content) (v.view content) := by
  have hactivity := activity_eq now others
  have hquiet (hp : p.isPending = false) (hp' : p'.isPending = false) (hask : p'.isAsking = false) :
      View.Step c (w.view content) ((w.view content).move me (.load p')) :=
    .quiet me _ (by rw [show (w.view content).activity me = _ from was]; exact hp) hp' hask
  generalize hs : v.machine.shared = s' at step
  simp only [view, hactivity, hs, hdeeds, hverdicts, hcomplaints]
  cases p with
  | peek | enter =>
    simp only [Load.step] at step
    split at step <;> cases step <;>
      simpa [view, View.move, Load.verdict?, Caller.report?, Stats.hit] using hquiet rfl rfl rfl
  | recheck =>
    simp only [Load.step] at step
    split at step <;> rename_i hcurrent <;> cases step
    · simpa [view, View.move, Load.verdict?, Caller.report?, Stats.hit] using hquiet rfl rfl rfl
    · simpa [view, View.move, Load.verdict?, Caller.report?] using View.Step.ask (c := c) me was hcurrent
  | consult =>
    cases hbad : w.machine.shared.knownBad with
    | true =>
      simp only [Load.step, hbad, if_true, Option.some.injEq, Prod.mk.injEq] at step
      obtain ⟨rfl, rfl⟩ := step
      simpa [view, View.move, Load.verdict?, Caller.report?, hbad] using hquiet rfl rfl rfl
    | false =>
      simp only [Load.step, hbad, Bool.false_eq_true, if_false, Option.some.injEq, Prod.mk.injEq] at step
      obtain ⟨rfl, rfl⟩ := step
      simpa [view, View.move, Load.verdict?, Caller.report?, hbad] using
        View.Step.turn (c := c) (x := w.view content) me was hbad
  | fetch =>
    cases step
    simpa [view, View.move, Load.verdict?, Caller.report?] using
      View.Step.read (c := c) (x := w.view content) me _ was fun b hb => hslot.read hb
  | receive found =>
    simp only [Load.step] at step
    split at step <;> rename_i hfound
    · cases step
      simpa [view, View.move, Load.verdict?, hfound, Caller.report?] using
        View.Step.refuse (c := c) (x := w.view content) me found _ was
    · cases step
      simpa [view, View.move, Load.verdict?, hfound, Caller.report?] using hquiet rfl rfl rfl
    · have hread : found = .ok (some _) := eq_of_outcome hfound
      subst hread
      split at step <;> rename_i hdecode <;> cases step
      · simpa [view, View.move, Load.verdict?, hfound, hdecode, Caller.report?, Stats.loaded] using
          View.Step.decode (c := c) (x := w.view content) me _ _ _ was hdecode
      · simpa [view, View.move, Load.verdict?, hfound, hdecode, Caller.report?] using
          View.Step.condemn (c := c) (x := w.view content) me _ _ was hdecode
  | fail e =>
    cases step
    have hmark := View.Step.mark (c := c) (x := w.view content) me e was
    cases hio : e.isIo with
    | true => simpa [view, View.move, Load.verdict?, Caller.report?, hio] using hmark
    | false => simpa [view, View.move, Load.verdict?, Caller.report?, hio] using hmark
  | complain e =>
    cases step
    simpa [view, View.move, Load.verdict?, Caller.report?, Stats.loadFailed] using
      View.Step.complain (c := c) (x := w.view content) me e was
  | install header model =>
    simp only [Load.step] at step
    split at step <;> cases step
    simpa [view, View.move, Load.verdict?, Caller.report?] using
      View.Step.install (c := c) (x := w.view content) me header model was
  | publish header model =>
    cases step
    simpa [view, View.move, Load.verdict?, Caller.report?] using
      View.Step.publish (c := c) (x := w.view content) me header model was
  | leave result =>
    cases step
    simpa [view, View.move, Load.verdict?, Caller.report?] using hquiet rfl rfl rfl
  | done result => cases step

/-- A step of a save. -/
private theorem step_of_save (hslot : c.slot.Lawful content) {p p' : Save M}
    (was : w.machine.activity me = .save p) (now : v.machine.activity me = .save p')
    (others : ∀ a, a ≠ me → v.machine.activity a = w.machine.activity a)
    (step : p.step c me o w.machine.shared = some (p', v.machine.shared))
    (hdeeds : v.deeds = w.deeds ++ (p.deed? c o w.machine.shared.slot).toList)
    (hgenuine : ∀ model header blob, p.deed? c o w.machine.shared.slot = some (.saved model header blob) →
      Snapshot.decode c.codec c.modelVersion blob = .ok (header, model))
    (hverdicts : v.verdicts = w.verdicts) (hcomplaints : complaints v.reported = complaints w.reported) :
    View.Step c (w.view content) (v.view content) := by
  have hactivity := activity_eq now others
  have hloads := (Save.tells step).2
  have hquiet (hp : p.isCommitting = false) (hp' : p'.isCommitting = false) :
      View.Step c (w.view content) ((w.view content).move me (.save p')) :=
    .quiet me _ (by rw [show (w.view content).activity me = _ from was]; exact hp) hp' rfl
  simp only [view, hactivity, hdeeds, hverdicts, hcomplaints, hloads]
  clear hloads
  generalize v.machine.shared = s' at step
  cases p with
  | enter | capture | seed | receive | encode =>
    simp only [Save.step] at step
    split at step <;> cases step <;> simpa [view, View.move, Save.deed?] using hquiet rfl rfl
  | write model header blob =>
    simp only [Save.step] at step
    split at step <;> rename_i hwrite <;> cases step
    · -- the slot has been filled
      have hdeed : (Save.write model header blob).deed? c o w.machine.shared.slot =
          some (.saved model header blob) := by
        simp only [Save.deed?, hwrite]
      have hblob := content_of_write hslot hwrite
      simpa [view, View.move, hdeed, hblob] using
        View.Step.write (c := c) (x := w.view content) me model header blob _ was
          (hgenuine model header blob hdeed)
    · have hsame := content_of_failed_write hslot hwrite
      simpa [view, View.move, Save.deed?, hwrite, hsame] using hquiet rfl rfl
  | commit model r =>
    cases step
    simpa [view, View.move, Save.deed?] using
      View.Step.commit (c := c) (x := w.view content) me model r was
  | publish model r =>
    cases step
    simpa [view, View.move, Save.deed?] using
      View.Step.settle (c := c) (x := w.view content) me model r was
  | record | leave =>
    cases step
    simpa [view, View.move, Save.deed?] using hquiet rfl rfl
  | done result => cases step

/-- A step of an invalidation. -/
private theorem step_of_invalidate (hslot : c.slot.Lawful content) {p p' : Invalidation}
    (was : w.machine.activity me = .invalidate p) (now : v.machine.activity me = .invalidate p')
    (others : ∀ a, a ≠ me → v.machine.activity a = w.machine.activity a)
    (step : p.step c me o w.machine.shared = some (p', v.machine.shared))
    (hdeeds : v.deeds = w.deeds ++ (p.deed? c o w.machine.shared.slot).toList)
    (hverdicts : v.verdicts = w.verdicts) (hcomplaints : complaints v.reported = complaints w.reported) :
    View.Step c (w.view content) (v.view content) := by
  have hactivity := activity_eq now others
  have hloads := (Invalidation.tells step).2
  have hquiet (hp : p.isClearing = false) (hp' : p'.isClearing = false) :
      View.Step c (w.view content) ((w.view content).move me (.invalidate p')) :=
    .quiet me _ (by rw [show (w.view content).activity me = _ from was]; exact hp) hp' rfl
  simp only [view, hactivity, hdeeds, hverdicts, hcomplaints, hloads]
  clear hloads
  generalize v.machine.shared = s' at step
  cases p with
  | cancel | leave =>
    cases step
    simpa [view, View.move, Invalidation.deed?] using hquiet rfl rfl
  | enterLoad | enterWrite =>
    simp only [Invalidation.step] at step
    split at step <;> cases step
    simpa [view, View.move, Invalidation.deed?] using hquiet rfl rfl
  | remove =>
    simp only [Invalidation.step] at step
    split at step <;> rename_i hremove <;> cases step
    · have hnone := content_of_remove hslot hremove
      simpa [view, View.move, Invalidation.deed?, hremove, hnone] using
        View.Step.remove (c := c) (x := w.view content) me was
    · have hsame := content_of_failed_remove hslot hremove
      simpa [view, View.move, Invalidation.deed?, hremove, hsame] using hquiet rfl rfl
  | forget =>
    cases step
    simpa [view, View.move, Invalidation.deed?] using
      View.Step.forget (c := c) (x := w.view content) me was
  | absolve =>
    cases step
    simpa [view, View.move, Invalidation.deed?] using
      View.Step.absolve (c := c) (x := w.view content) me was
  | done result => cases step

/-- A step outside the lanes. -/
private theorem step_of_edge (was : (w.machine.activity me).isAtEdge = true)
    (now : (v.machine.activity me).isAtEdge = true)
    (others : ∀ a, a ≠ me → v.machine.activity a = w.machine.activity a)
    (core : w.machine.shared.SameCore v.machine.shared) (hdeeds : v.deeds = w.deeds)
    (hverdicts : v.verdicts = w.verdicts)
    (hloads : v.machine.shared.stats.storageLoads = w.machine.shared.stats.storageLoads)
    (hcomplaints : complaints v.reported = complaints w.reported) :
    View.Step c (w.view content) (v.view content) := by
  have hactivity := activity_eq rfl others
  obtain ⟨hpending, hasking⟩ := Activity.isPending_of_isAtEdge now
  have hquiet : View.Step c (w.view content) ((w.view content).move me (v.machine.activity me)) :=
    .quiet me _ (Activity.isPending_of_isAtEdge was).1 hpending hasking
  have hview : v.view content = (w.view content).move me (v.machine.activity me) := by
    simp only [view, View.move, hdeeds, hverdicts, hloads, hcomplaints, core.slot, core.current,
      core.knownBad, ← hactivity]
  rw [hview]
  exact hquiet

/-- Only loads report trouble with the blob. -/
private theorem countP_report? {m : Machine σ M} (o : Outside)
    (h : ∀ e, m.activity me ≠ .load (.complain e)) :
    complaints (m.report? c (.of me o)).toList = 0 := by
  cases me with
  | writer =>
    simp only [Machine.Label.of, Machine.report?]
    cases m.writer <;> rfl
  | caller i =>
    simp only [Machine.Label.of, Machine.report?]
    cases hi : m.callers i with
    | loading p =>
      have hp (e : CacheError) : p ≠ .complain e := by
        rintro rfl
        exact h e (by simp only [Machine.activity, hi, Caller.activity])
      cases p with
      | complain e => exact absurd rfl (hp e)
      | _ => rfl
    | _ => rfl

/-- **One step of the whole cache**, for all that an inquiry is about. -/
theorem view_step (hslot : c.slot.Lawful content) (hcodec : c.codec.Faithful valid)
    (h : w.machine.Coherent c content valid) {l : Machine.Label σ M} (hl : l.Owned valid)
    (hstep : w.step c l = some v) : View.Step c (w.view content) (v.view content) := by
  obtain ⟨m, hm, rfl⟩ := Option.map_eq_some_iff.mp hstep
  have turn := turn_of_step hm
  have hgenuine := (turn.content_eq h hslot hcodec hl).2
  have hloads := storageLoads_of_step hm
  -- what the inquiry takes down if it is not a load that has come to a verdict
  have hsilent {me : Actor} {o : Outside} (hload : ∀ e, w.machine.activity me ≠ .load (.complain e)) :
      complaints w.reported + complaints (w.machine.report? c (.of me o)).toList =
        complaints w.reported := by
    rw [countP_report? o hload, Nat.add_zero]
  cases turn with
  | load me o p p' was now others step =>
    have hreport : w.machine.report? c (.of me o) = (Caller.loading p).report? c := by
      cases me with
      | writer => cases hw : w.machine.writer <;> simp [Machine.activity, Writer.activity, hw] at was
      | caller i =>
        cases hi : w.machine.callers i <;> simp [Machine.activity, Caller.activity, hi] at was
        subst was
        simp only [Machine.Label.of, Machine.report?, hi]
    refine step_of_load hslot was now others step ?_ ?_ ?_
    · simp only [Machine.deed?_of, was]
      exact List.append_nil _
    · simp only [Machine.verdict?_of, was]
      rfl
    · rw [complaints_append, hreport]
  | save me o p p' was now others step =>
    rw [Machine.deed?_of, was] at hgenuine
    refine step_of_save hslot was now others step ?_ hgenuine ?_ ?_
    · simp only [Machine.deed?_of, was]
      rfl
    · simp only [Machine.verdict?_of, was]
      exact List.append_nil _
    · rw [complaints_append]
      exact hsilent (by simp [was])
  | invalidate me o p p' was now others step =>
    refine step_of_invalidate hslot was now others step ?_ ?_ ?_
    · simp only [Machine.deed?_of, was]
      rfl
    · simp only [Machine.verdict?_of, was]
      exact List.append_nil _
    · rw [complaints_append]
      exact hsilent (by simp [was])
  | begin i call last was eq =>
    subst eq
    obtain ⟨hbefore, hafter⟩ := w.machine.isAtEdge_begin was call
    exact step_of_edge hbefore hafter (fun a ha => w.machine.activity_move_of_ne _ _ ha)
      (Shared.sameCore _ _ _ _ _) (List.append_nil _) (List.append_nil _) rfl
      (congrArg complaints (List.append_nil _))
  | edge me o was others core aside =>
    have hverdict : (w.machine.activity me).verdict? c o w.deeds.getLast? = none ∧
        (w.machine.activity me).decodes c o = false := by
      cases hme : w.machine.activity me with
      | load p =>
        rw [hme] at was
        cases p <;> first | exact ⟨rfl, rfl⟩ | cases was
      | _ => exact ⟨rfl, rfl⟩
    refine step_of_edge was aside.isAtEdge others core ?_ ?_ ?_ ?_
    · simp only [Machine.deed?_of, Activity.deed?_of_isAtEdge was]
      exact List.append_nil _
    · simp only [Machine.verdict?_of, hverdict.1]
      exact List.append_nil _
    · rw [hloads, Machine.decodes_of, hverdict.2]
      rfl
    · rw [complaints_append]
      exact hsilent (by rintro e he; rw [he] at was; cases was)
  | host holder same shared_eq =>
    simpa [view, same, shared_eq, Machine.deed?, Machine.verdict?, Machine.report?] using
      View.Step.same (c := c) (x := w.view content)
  | stranger slot same shared_eq => exact hl.elim

/-- **Induction along an inquiry** into a cache that has its slot for itself: what holds of its view at first
and is kept by every step of it holds in the end. -/
theorem view_induction (hslot : c.slot.Lawful content) (hcodec : c.codec.Faithful valid) {slot : σ}
    {holder : Holder M} {reports : Reports} (hvalid : ∀ model, holder.current = some model → valid model)
    {ls : List (Machine.Label σ M)} (hls : ∀ l ∈ ls, l.Owned valid)
    (hrun : run (Inquiry.step c) (.start slot holder reports) ls = some w) {P : View M → Prop}
    (hstart : P ((Inquiry.start slot holder reports).view content))
    (hstep : ∀ x y, P x → Apart x.activity → Apart y.activity → View.Step c x y → P y) :
    w.machine.Lanes ∧ P (w.view content) := by
  have h : w.chronicle.Agrees c content valid (content slot) ∧ P (w.view content) := by
    refine run_induction (P := fun w : Inquiry σ M => w.chronicle.Agrees c content valid (content slot) ∧
      P (w.view content)) hrun hls ⟨Chronicle.agrees_start reports hvalid, hstart⟩ ?_
    rintro w l v ⟨hw, hp⟩ hl hs
    have hv := hw.step hslot hcodec hl (chronicle_step hs)
    exact ⟨hv, hstep _ _ hp hw.lanes.apart hv.lanes.apart
      (view_step hslot hcodec hw.coherent hl hs)⟩
  exact ⟨h.1.lanes, h.2⟩

end Inquiry

end Cache

end SnapStore
