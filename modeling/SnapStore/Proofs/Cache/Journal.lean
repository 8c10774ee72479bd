import SnapStore.Proofs.Cache.Calm

namespace SnapStore.Cache

/-!
# A journal of requests and saves

A journal keeps what callers have asked for and what the writer has done about it, in the order in which it
has happened.  It only looks on: it never decides which steps there are.

* `Event` is what can happen; `Journal` is a cache with everything that has happened.
* `Note` — what a step can do to the signal and to the writer, and what is noted of it; `note_of_step` says
  that this is all.
* `efforts` — what the writer has done for a decision, among everything that has happened since.
* `Attempt` — what is noted of a save that has come to its end.
* `Writer.Noted` — what has been noted of a writer, by the place where it stands; every step of it keeps
  this, as `Save.Noted.step` says for its saves.
-/

variable {σ M : Type}

/-! ### What happens -/

/-- What can happen. -/
inductive Event (M : Type)
  | /-- A request for a save gets its answer. -/ requested (o : Flush.Outcome)
  | /-- The pending save is dropped, if there is one. -/ dropped
  | /-- The writer decides what to do. -/ decided (d : Flush.Decision)
  | /-- A save of the writer asks the holder for its model. -/ captured (model : Option M)
  | /-- A save of the writer fills the slot. -/ saved (model : M) (h : Snapshot.Header) (blob : Bytes)
  | /-- A save of the writer comes to its end. -/ ended (result : Except CacheError (Option SaveReport))

namespace Event

/-- Whether nothing is pending after this. -/
def takes : Event M → Bool
  | .dropped | .decided _ => true
  | _ => false

/-- Whether the writer has decided something. -/
def isDecision : Event M → Bool
  | .decided _ => true
  | _ => false

/-- Whether this is part of a save of the writer. -/
def isEffort : Event M → Bool
  | .captured _ | .saved .. | .ended _ => true
  | _ => false

end Event

/-- What a caller is about to do that is noted. -/
def Caller.event? (s : Shared σ M) : Caller M → Option (Event M)
  | .marking reading => some (.requested (s.signal.request reading).1)
  | .invalidating .cancel => some .dropped
  | _ => none

/-- What a save of the writer is about to do that is noted. -/
def Save.event? (c : Setup σ M) (o : Outside) (s : Shared σ M) : Save M → Option (Event M)
  | .capture => some (.captured s.holder.current)
  | .write model h blob =>
    match (o.change (c.slot.write blob) s.slot).1 with
    | .ok () => some (.saved model h blob)
    | .error _ => none
  | _ => none

/-- What the writer is about to do that is noted. -/
def Writer.event? (c : Setup σ M) (o : Outside) (s : Shared σ M) : Writer M → Option (Event M)
  | .ready => (s.signal.decide? c.timing o.now).map fun (d, _) => .decided d
  | .saving _ (.done result) => some (.ended result)
  | .saving _ p => p.event? c o s
  | _ => none

/-- What is noted of a step. -/
def Machine.event? (c : Setup σ M) (m : Machine σ M) : Machine.Label σ M → Option (Event M)
  | .caller i _ => (m.callers i).event? m.shared
  | .writer o => m.writer.event? c o m.shared
  | _ => none

/-- A cache with everything that has happened. -/
structure Journal (σ M : Type) where
  machine : Machine σ M
  events : List (Event M) := []

/-- One step of one thread, or a change from elsewhere. -/
def Journal.step (c : Setup σ M) (l : Machine.Label σ M) (j : Journal σ M) : Option (Journal σ M) :=
  (j.machine.step c l).map fun machine => ⟨machine, j.events ++ (j.machine.event? c l).toList⟩

/-- The journal only looks on: every run of the cache is a run of the journal. -/
theorem Journal.exists_run {c : Setup σ M} {j : Journal σ M} {ls : List (Machine.Label σ M)}
    {m : Machine σ M} (h : run (Machine.step c) j.machine ls = some m) :
    ∃ k, run (Journal.step c) j ls = some k ∧ k.machine = m := by
  refine exists_run_of_run (fun l j => ?_) h
  rw [Journal.step, Option.map_map]
  exact Option.map_id' ..

/-! ### What a step can do -/

/-- What a step can do to the signal and to the writer, and what is noted of it. -/
inductive Note (c : Setup σ M) (m m' : Machine σ M) : Option (Event M) → Prop
  | still (signal : m'.shared.signal = m.shared.signal) (writer : m'.writer = m.writer) : Note c m m' none
  | request (reading : Nat) (signal : m'.shared.signal = (m.shared.signal.request reading).2)
      (writer : m'.writer = m.writer) :
      Note c m m' (some (.requested (m.shared.signal.request reading).1))
  | drop (signal : m'.shared.signal = m.shared.signal.cancel.2) (writer : m'.writer = m.writer) :
      Note c m m' (some .dropped)
  | close (signal : m'.shared.signal = m.shared.signal.close) (writer : m'.writer = m.writer) :
      Note c m m' none
  | decide (o : Outside) (d : Flush.Decision) (was : m.writer = .ready)
      (signal : m.shared.signal.decide? c.timing o.now = some (d, m'.shared.signal))
      (now : m'.writer = .decided c.flushOnShutdown d) : Note c m m' (some (.decided d))
  | save (o : Outside) (d : Flush.Decision) (p p' : Save M) (was : m.writer = .saving d p)
      (now : m'.writer = .saving d p') (step : p.step c .writer o m.shared = some (p', m'.shared)) :
      Note c m m' (p.event? c o m.shared)
  | leave (d : Flush.Decision) (result : Except CacheError (Option SaveReport))
      (was : m.writer = .saving d (.done result)) (signal : m'.shared.signal = m.shared.signal)
      (now : m'.writer = .finishing d ∨ ∃ e, m'.writer = .complaining d e) :
      Note c m m' (some (.ended result))
  | complain (d : Flush.Decision) (e : CacheError) (was : m.writer = .complaining d e)
      (signal : m'.shared.signal = m.shared.signal) (now : m'.writer = .finishing d) : Note c m m' none
  | finish (d : Flush.Decision) (was : m.writer = .finishing d)
      (signal : m'.shared.signal = m.shared.signal.finish) (now : m'.writer = .after d) : Note c m m' none

section Steps

variable {c : Setup σ M} {m m' : Machine σ M} {me : Actor} {o : Outside}

/-- Only its first step concerns the signal. -/
theorem Invalidation.signal_eq {s s' : Shared σ M} {p p' : Invalidation} (hp : p ≠ .cancel)
    (h : p.step c me o s = some (p', s')) : s'.signal = s.signal := by
  cases p with
  | cancel => exact absurd rfl hp
  | forget | absolve | leave =>
    cases h
    rfl
  | enterLoad | enterWrite | remove =>
    simp only [Invalidation.step] at h
    split at h <;> cases h <;> rfl
  | done result => cases h

private theorem note_of_stepCaller {i : ThreadId} (h : m.stepCaller c i o = some m') :
    Note c m m' ((m.callers i).event? m.shared) := by
  cases hi : m.callers i <;> simp only [Machine.stepCaller, hi] at h
  case outside last => cases h
  case loading p =>
    cases p with
    | done result =>
      cases h
      exact .still rfl rfl
    | _ =>
      obtain ⟨⟨p', s⟩, hp, rfl⟩ := Option.map_eq_some_iff.mp h
      exact .still (Load.signal_eq hp) rfl
  case saving p =>
    cases p with
    | done result =>
      cases h
      refine .still ?_ rfl
      cases result <;> rfl
    | _ =>
      obtain ⟨⟨p', s⟩, hp, rfl⟩ := Option.map_eq_some_iff.mp h
      exact .still (Save.signal_eq hp) rfl
  case invalidating p =>
    cases p with
    | done result =>
      cases h
      exact .still rfl rfl
    | cancel =>
      cases h
      exact .drop rfl rfl
    | _ =>
      obtain ⟨⟨p', s⟩, hp, rfl⟩ := Option.map_eq_some_iff.mp h
      exact .still (Invalidation.signal_eq (by simp) hp) rfl
  case requesting | timing | merging | awaiting | counting | taking =>
    cases h
    exact .still rfl rfl
  case marking reading =>
    cases h
    exact .request reading rfl rfl
  case checking deadline =>
    split at h
    · cases h
      exact .still rfl rfl
    · split at h <;> cases h
      exact .still rfl rfl
  case closing =>
    cases h
    exact .close rfl rfl
  case joining =>
    split at h <;> cases h
    exact .still rfl rfl

private theorem note_of_stepWriter (h : m.stepWriter c o = some m') :
    Note c m m' (m.writer.event? c o m.shared) := by
  cases hw : m.writer <;> simp only [Machine.stepWriter, hw] at h
  case ready =>
    obtain ⟨⟨d, signal⟩, hd, rfl⟩ := Option.map_eq_some_iff.mp h
    simp only [Writer.event?, hd, Option.map_some]
    exact .decide o d hw hd rfl
  case saving d p =>
    cases p with
    | done result =>
      cases result <;> cases h
      · exact .leave d _ hw rfl (.inr ⟨_, rfl⟩)
      · exact .leave d _ hw rfl (.inl rfl)
    | _ =>
      obtain ⟨⟨p', s⟩, hp, rfl⟩ := Option.map_eq_some_iff.mp h
      exact .save o d _ p' hw rfl hp
  case complaining d e =>
    cases h
    exact .complain d e hw rfl rfl
  case finishing d =>
    cases h
    exact .finish d hw rfl rfl
  case stopped => cases h

/-- **What is noted.** A step of the cache is a step that concerns the signal or the writer, and is noted as
such, or nothing is noted. -/
theorem note_of_step {l : Machine.Label σ M} (h : Machine.step c l m = some m') :
    Note c m m' (m.event? c l) := by
  cases l with
  | call i call =>
    simp only [Machine.step] at h
    split at h <;> cases h
    exact .still rfl rfl
  | caller i o => exact note_of_stepCaller h
  | writer o => exact note_of_stepWriter h
  | host holder | stranger slot =>
    cases h
    exact .still rfl rfl

end Steps

/-! ### What the writer does for a decision -/

/-- What the writer has done for a decision, among everything that has happened since: what it has done
before it decided again. -/
def efforts (es : List (Event M)) : List (Event M) :=
  (es.takeWhile fun e => ! e.isDecision).filter Event.isEffort

theorem efforts_cons_of_isDecision {e : Event M} (h : e.isDecision = true) (es : List (Event M)) :
    efforts (e :: es) = [] := by
  simp [efforts, h]

/-- What has been done for a decision only grows until the next one. -/
theorem efforts_concat (es : List (Event M)) (e : Event M) :
    efforts (es ++ [e]) =
      if es.any Event.isDecision then efforts es else efforts es ++ [e].filter Event.isEffort := by
  induction es with
  | nil => cases e <;> rfl
  | cons a es ih =>
    cases ha : a.isDecision with
    | true =>
      -- everything after another decision is for that one
      rw [List.cons_append, efforts_cons_of_isDecision ha, efforts_cons_of_isDecision ha, List.any_cons, ha,
        Bool.true_or, if_pos rfl]
    | false =>
      have hcons (bs : List (Event M)) : efforts (a :: bs) = [a].filter Event.isEffort ++ efforts bs := by
        simp [efforts, ha, ← List.filter_append]
      rw [List.cons_append, hcons, hcons, ih, List.any_cons, ha, Bool.false_or]
      split
      · rfl
      · rw [List.append_assoc]

/-- Whether the writer makes a save for a decision. -/
def Setup.attempts (c : Setup σ M) : Flush.Decision → Bool
  | .flush => true
  | .shutdown pending => pending && c.flushOnShutdown

section Saves

variable (c : Setup σ M)

/-- What is noted of a save that has come to its end, with what it has come to. -/
inductive Attempt : List (Event M) → Except CacheError (Option SaveReport) → Prop
  | /-- There has been nothing to save. -/ nothing : Attempt [.captured none] (.ok none)
  | failed (model : M) (e : CacheError) : Attempt [.captured (some model)] (.error e)
  | /-- What the slot has been filled with is made of the model that the holder had. -/
    saved (model : M) (h : Snapshot.Header) (blob : Bytes)
      (encode : Snapshot.encode c.codec h model c.level = .ok blob) :
      Attempt [.captured (some model), .saved model h blob] (.ok (some ⟨h, blob.length⟩))

/-- What has been noted of a save, by the place where it stands. -/
def Save.Noted (es : List (Event M)) : Save M → Prop
  | .enter | .capture => es = []
  | .seed model | .receive model _ | .encode model => es = [.captured (some model)]
  | .write model h blob =>
    es = [.captured (some model)] ∧ Snapshot.encode c.codec h model c.level = .ok blob
  | .commit _ r | .publish _ r | .record r => Attempt c es (.ok (some r))
  | .leave result | .done result => Attempt c es result

/-- What is noted of a decision that the writer is done with. -/
def Complete (d : Flush.Decision) (es : List (Event M)) : Prop :=
  if c.attempts d then ∃ fs result, Attempt c fs result ∧ es = fs ++ [.ended result]
  else es = []

/-- What has been noted of the writer since its last decision, by the place where it stands. -/
def Writer.Noted (d : Flush.Decision) (es : List (Event M)) : Writer M → Prop
  | .ready | .stopped => Complete c d es
  | .saving d' p => d' = d ∧ c.attempts d = true ∧ p.Noted c es
  | .complaining d' _ | .finishing d' => d' = d ∧ Complete c d es

end Saves

section Noted

variable {c : Setup σ M} {m m' : Machine σ M} {me : Actor} {o : Outside} {es : List (Event M)}
  {d : Flush.Decision}

theorem Save.isEffort_of_event? {s : Shared σ M} {p : Save M} {e : Event M}
    (h : p.event? c o s = some e) : e.isEffort = true := by
  cases p with
  | capture =>
    cases h
    rfl
  | write model header blob =>
    simp only [Save.event?] at h
    split at h <;> cases h
    rfl
  | _ => cases h

/-- **Every step of a save keeps it** that what has been noted tells where the save stands. -/
theorem Save.Noted.step {s s' : Shared σ M} {p p' : Save M} (h : p.Noted c es)
    (hstep : p.step c me o s = some (p', s')) : p'.Noted c (es ++ (p.event? c o s).toList) := by
  cases p with
  | enter =>
    simp only [Save.step] at hstep
    split at hstep <;> cases hstep
    exact (List.append_nil es).trans h
  | capture =>
    simp only [Save.Noted] at h
    subst h
    simp only [Save.step] at hstep
    split at hstep <;> rename_i hcurrent <;> cases hstep <;>
      simp only [Save.event?, hcurrent, Option.toList_some, List.nil_append]
    · rfl
    · exact .nothing
  | seed model | receive model found =>
    simp only [Save.step] at hstep
    split at hstep <;> cases hstep <;> exact (List.append_nil es).trans h
  | encode model =>
    simp only [Save.Noted] at h
    subst h
    simp only [Save.step] at hstep
    split at hstep <;> rename_i hblob <;> cases hstep
    · exact ⟨rfl, Outside.compressed_ok hblob⟩
    · exact .failed model _
  | write model header blob =>
    obtain ⟨rfl, hblob⟩ := h
    simp only [Save.step] at hstep
    split at hstep <;> rename_i hwrite <;> cases hstep <;>
      simp only [Save.event?, hwrite, Option.toList_some, Option.toList_none]
    · exact .saved model header blob hblob
    · exact .failed model _
  | commit | publish | record | leave =>
    cases hstep
    exact (List.append_nil es).symm ▸ h
  | done result => cases hstep

theorem Writer.noted_decided (c : Setup σ M) (d : Flush.Decision) :
    (Writer.decided c.flushOnShutdown d).Noted c d [] := by
  cases d with
  | flush => exact ⟨rfl, rfl, rfl⟩
  | shutdown pending =>
    cases hd : pending && c.flushOnShutdown with
    | true =>
      rw [Writer.decided, hd]
      exact ⟨rfl, hd, rfl⟩
    | false =>
      rw [Writer.decided, hd]
      refine ⟨rfl, ?_⟩
      rw [Complete, Setup.attempts, hd]
      rfl

/-- **Every step keeps it** that what has been noted since the last decision tells where the writer
stands. -/
theorem Note.noted {e : Option (Event M)} (note : Note c m m' e) (h : m.writer.Noted c d es)
    (hd : ∀ d', e ≠ some (.decided d')) :
    m'.writer.Noted c d (es ++ e.toList.filter Event.isEffort) := by
  cases note with
  | still signal writer | request reading signal writer | drop signal writer | close signal writer =>
    rw [writer]
    exact (List.append_nil es).symm ▸ h
  | decide o d' was signal now => exact absurd rfl (hd d')
  | save o d' p p' was now step =>
    rw [was] at h
    rw [now]
    obtain ⟨rfl, hattempts, hp⟩ := h
    refine ⟨rfl, hattempts, ?_⟩
    -- whatever a save notes is part of what the writer does for its decision
    have hfilter : (p.event? c o m.shared).toList.filter Event.isEffort = (p.event? c o m.shared).toList :=
      List.filter_eq_self.mpr fun e he => Save.isEffort_of_event? (Option.mem_toList.mp he)
    rw [hfilter]
    exact hp.step step
  | leave d' result was signal now =>
    rw [was] at h
    obtain ⟨rfl, hattempts, hp⟩ := h
    have hcomplete : Complete c d' (es ++ [.ended result]) := by
      rw [Complete, if_pos hattempts]
      exact ⟨es, result, hp, rfl⟩
    rcases now with now | ⟨e, now⟩ <;> rw [now] <;> exact ⟨rfl, hcomplete⟩
  | complain d' e was signal now =>
    rw [was] at h
    rw [now]
    exact (List.append_nil es).symm ▸ h
  | finish d' was signal now =>
    rw [was] at h
    rw [now]
    cases d' <;> exact (List.append_nil es).symm ▸ h.2

end Noted

end SnapStore.Cache
