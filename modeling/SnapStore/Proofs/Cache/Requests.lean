import SnapStore.Proofs.Cache.Alone
import SnapStore.Proofs.Cache.Journal

namespace SnapStore.Cache

/-!
# What becomes of requests for saves

A request that is accepted waits until somebody drops it or the writer takes it, together with all the others
that wait then.  For what it takes the writer makes one save, of the model that the holder has at that time.

* `Awaited` — what can have become of a request, given what has happened since.
* `Followed` — what the writer can have done for a decision, given what has happened since.
* `Journal.Sound` — everything in a journal is like this; every step keeps it.
* `requests_are_served` — no request is lost, what is saved for it is no older than it is, and there are no
  more saves than requests that found nothing pending.
-/

variable {σ M : Type}

/-! ### What can become of a request -/

/-- What can have become of a request, given what has happened since: it waits, or it has been dropped, or
the writer has taken it. -/
def Awaited (pending : Option Flush.Pending) (es : List (Event M)) : Prop :=
  match es.find? Event.takes with
  | none => pending.isSome = true
  | some e => e = .dropped ∨ e = .decided .flush ∨ e = .decided (.shutdown true)

/-- What the writer can have done for a decision so far: some part of a save, if it makes one. -/
def Serves (c : Setup σ M) (d : Flush.Decision) (es : List (Event M)) : Prop :=
  if c.attempts d then ∃ fs result, Attempt c fs result ∧ es <+: fs ++ [.ended result] else es = []

/-- What the writer has done for a decision, given everything that has happened since: it is done with it
before it decides again, and until then it stands where it has come to. -/
def Followed (c : Setup σ M) (w : Writer M) (d : Flush.Decision) (es : List (Event M)) : Prop :=
  if es.any Event.isDecision then Complete c d (efforts es) else w.Noted c d (efforts es)

/-- What can have become of an event, given what has happened since. -/
def Event.Answered (c : Setup σ M) (m : Machine σ M) (es : List (Event M)) : Event M → Prop
  | .requested o => o ≠ .closed → Awaited m.shared.signal.pending es
  | .decided d => Followed c m.writer d es
  | _ => True

/-- Whether a request has found nothing pending. -/
def Event.isScheduled : Event M → Bool
  | .requested .scheduled => true
  | _ => false

/-- Whether the writer has decided to make a save. -/
def Setup.isAttempt (c : Setup σ M) : Event M → Bool
  | .decided d => c.attempts d
  | _ => false

/-- Whether a save of the writer has filled the slot. -/
def Event.isSaved : Event M → Bool
  | .saved .. => true
  | _ => false

/-- Whether a save may still fill the slot. -/
def Save.mayFill : Save M → Bool
  | .enter | .capture | .seed _ | .receive .. | .encode _ | .write .. => true
  | _ => false

/-- Whether the writer may still fill the slot without another decision. -/
def Writer.mayFill : Writer M → Bool
  | .saving _ p => p.mayFill
  | _ => false

section Steps

variable {c : Setup σ M} {m m' : Machine σ M} {me : Actor} {o : Outside} {es : List (Event M)}
  {e : Option (Event M)} {d : Flush.Decision}

/-- Something is pending after a request if something was before, or if the request is accepted. -/
theorem isSome_pending_request (s : Flush.Signal) (reading : Nat) :
    (s.request reading).2.pending.isSome = true ↔
      s.pending.isSome = true ∨ (s.request reading).1 ≠ .closed := by
  unfold Flush.Signal.request
  split
  · simp
  · split <;> simp_all

/-- What the writer decides while something is pending is what becomes of it. -/
theorem decision_of_pending {s s' : Flush.Signal} {t : Flush.Timing} {now : Nat}
    (hd : s.decide? t now = some (d, s')) (hp : s.pending.isSome = true) :
    d = .flush ∨ d = .shutdown true := by
  rcases (Flush.Signal.decide?_eq_some_iff.mp hd).2 with ⟨-, hd⟩ | ⟨-, hd, -⟩
  · exact .inr (by rw [hd, hp])
  · exact .inl hd

/-- **Nothing is lost.** A request that waits goes on waiting, or is dropped, or the writer takes it. -/
theorem Note.awaited (note : Note c m m' e) (h : Awaited m.shared.signal.pending es) :
    Awaited m'.shared.signal.pending (es ++ e.toList) := by
  unfold Awaited at h ⊢
  rw [List.find?_append]
  cases hfind : es.find? Event.takes with
  | some a =>
    rw [hfind] at h
    exact h
  | none =>
    -- it has been waiting until this step
    rw [hfind] at h
    replace h : m.shared.signal.pending.isSome = true := h
    cases note with
    | still signal writer | close signal writer | complain d e was signal now
    | finish d was signal now | leave d result was signal now =>
      rw [signal]
      exact h
    | request reading signal writer =>
      rw [signal]
      exact (isSome_pending_request _ reading).mpr (.inl h)
    | drop signal writer => exact .inl rfl
    | decide o d was signal now =>
      refine .inr ?_
      rcases decision_of_pending signal h with rfl | rfl
      · exact .inl rfl
      · exact .inr rfl
    | save o d p p' was now step =>
      have hnone : (p.event? c o m.shared).toList.find? Event.takes = none := by
        cases hp : p.event? c o m.shared with
        | none => rfl
        | some e =>
          have heffort := Save.isEffort_of_event? hp
          cases e <;> first | rfl | cases heffort
      rw [hnone, Save.signal_eq step]
      exact h

/-- A request that has just been accepted waits. -/
theorem Note.awaited_nil {out : Flush.Outcome} (note : Note c m m' (some (.requested out)))
    (hout : out ≠ .closed) : Awaited m'.shared.signal.pending ([] : List (Event M)) := by
  generalize he : some (Event.requested out : Event M) = e at note
  cases note with
  | request reading signal writer =>
    cases he
    show m'.shared.signal.pending.isSome = true
    rw [signal]
    exact (isSome_pending_request _ reading).mpr (.inr hout)
  | save o d p p' was now step =>
    have := Save.isEffort_of_event? he.symm
    cases this
  | _ => cases he

/-- The writer only decides when it is done with what it has decided before. -/
theorem Note.writer_of_decided (note : Note c m m' (some (.decided d))) :
    m.writer = .ready ∧ m'.writer = .decided c.flushOnShutdown d := by
  generalize he : some (Event.decided d : Event M) = e at note
  cases note with
  | decide o d' was signal now =>
    cases he
    exact ⟨was, now⟩
  | save o d p p' was now step =>
    have := Save.isEffort_of_event? he.symm
    cases this
  | _ => cases he

/-- **Nothing is left undone.** The writer does for a decision what is part of a save, and completes it
before it decides again. -/
theorem Note.followed (note : Note c m m' e) (h : Followed c m.writer d es) :
    Followed c m'.writer d (es ++ e.toList) := by
  unfold Followed at h ⊢
  cases e with
  | none =>
    rw [Option.toList_none, List.append_nil]
    cases hany : es.any Event.isDecision with
    | true =>
      rw [hany] at h
      exact h
    | false =>
      rw [hany] at h
      have := note.noted h (by simp)
      rwa [Option.toList_none, List.filter_nil, List.append_nil] at this
  | some e =>
    rw [Option.toList_some, efforts_concat, List.any_append, List.any_cons, List.any_nil, Bool.or_false]
    cases hany : es.any Event.isDecision with
    | true =>
      -- another decision has come before, and nothing changes any more
      rw [hany] at h
      exact h
    | false =>
      rw [hany] at h
      replace h : m.writer.Noted c d (efforts es) := h
      cases e with
      | decided d' =>
        rw [note.writer_of_decided.1] at h
        exact (List.append_nil (efforts es)).symm ▸ h
      | _ => exact note.noted h (by simp)

theorem Note.followed_nil (note : Note c m m' (some (.decided d))) : Followed c m'.writer d [] := by
  rw [note.writer_of_decided.2]
  exact Writer.noted_decided c d

theorem Note.answered (note : Note c m m' e) {a : Event M} (h : a.Answered c m es) :
    a.Answered c m' (es ++ e.toList) := by
  cases a with
  | requested out => exact fun hout => note.awaited (h hout)
  | decided d => exact note.followed h
  | _ => trivial

theorem Note.answered_nil {a : Event M} (note : Note c m m' (some a)) : a.Answered c m' [] := by
  cases a with
  | requested out => exact note.awaited_nil
  | decided d => exact note.followed_nil
  | _ => trivial

/-- Every attempt uses up a request that has found nothing pending. -/
theorem Note.attempts_le (note : Note c m m' e) :
    e.toList.countP c.isAttempt + m'.shared.signal.pending.isSome.toNat ≤
      e.toList.countP Event.isScheduled + m.shared.signal.pending.isSome.toNat := by
  cases note with
  | still signal writer | close signal writer | complain d e was signal now
  | finish d was signal now | leave d result was signal now =>
    rw [signal]
    exact Nat.le_refl _
  | drop signal writer =>
    rw [signal]
    exact Nat.zero_le _
  | request reading signal writer =>
    rw [signal]
    unfold Flush.Signal.request
    split
    · exact Nat.le_refl _
    · split <;> simp_all [Setup.isAttempt, Event.isScheduled]
  | decide o d was signal now =>
    -- the writer takes what is pending, and makes a save only if there was something
    obtain ⟨hsignal, hd⟩ := Flush.Signal.decide?_eq_some_iff.mp signal
    rw [hsignal]
    rcases hd with ⟨-, rfl⟩ | ⟨-, rfl, pending, hp, -⟩
    · cases m.shared.signal.pending <;>
        cases hflush : c.flushOnShutdown <;>
          simp [Setup.isAttempt, Setup.attempts, hflush, Event.isScheduled]
    · simp [Setup.isAttempt, Setup.attempts, hp, Event.isScheduled]
  | save o d p p' was now step =>
    rw [Save.signal_eq step]
    cases hp : p.event? c o m.shared with
    | none => exact Nat.le_refl _
    | some e =>
      have heffort := Save.isEffort_of_event? hp
      cases e <;> first | exact Nat.le_refl _ | cases heffort

/-- A save that fills the slot does not fill it again. -/
theorem Save.saves_le {s s' : Shared σ M} {p p' : Save M} (h : p.step c me o s = some (p', s')) :
    (p.event? c o s).toList.countP Event.isSaved + p'.mayFill.toNat ≤ p.mayFill.toNat := by
  cases p with
  | enter | capture | seed | receive | encode =>
    simp only [Save.step] at h
    split at h <;> cases h <;> exact Nat.le_of_ble_eq_true rfl
  | write model header blob =>
    simp only [Save.step] at h
    split at h <;> rename_i hwrite <;> cases h <;> simp only [Save.event?, hwrite] <;>
      exact Nat.le_of_ble_eq_true rfl
  | commit | publish | record | leave =>
    cases h
    exact Nat.le_refl _
  | done result => cases h

/-- Every save that fills the slot uses up an attempt. -/
theorem Note.saves_le (note : Note c m m' e) :
    e.toList.countP Event.isSaved + m'.writer.mayFill.toNat ≤
      e.toList.countP c.isAttempt + m.writer.mayFill.toNat := by
  cases note with
  | still signal writer | request reading signal writer | drop signal writer | close signal writer =>
    rw [writer]
    exact Nat.le_refl _
  | decide o d was signal now =>
    rw [was, now]
    cases d with
    | flush => exact Nat.le_refl _
    | shutdown pending =>
      cases hd : pending && c.flushOnShutdown <;>
        simp [Writer.decided, hd, Setup.isAttempt, Setup.attempts, Event.isSaved, Writer.mayFill,
          Save.mayFill]
  | save o d p p' was now step =>
    rw [was, now]
    exact Nat.le_trans (Save.saves_le step) (Nat.le_add_left _ _)
  | leave d result was signal now =>
    rcases now with now | ⟨e, now⟩ <;> rw [was, now] <;> exact Nat.le_refl _
  | complain d e was signal now =>
    rw [was, now]
    exact Nat.le_refl _
  | finish d was signal now =>
    rw [was, now]
    cases d <;> exact Nat.le_refl _

end Steps

/-! ### Whole runs -/

/-- What can be in a journal. -/
structure Journal.Sound (c : Setup σ M) (j : Journal σ M) : Prop where
  answered : ∀ pre a post, j.events = pre ++ a :: post → a.Answered c j.machine post
  attempts : j.events.countP c.isAttempt + j.machine.shared.signal.pending.isSome.toNat ≤
    j.events.countP Event.isScheduled
  saves : j.events.countP Event.isSaved + j.machine.writer.mayFill.toNat ≤ j.events.countP c.isAttempt

theorem Journal.sound_start (c : Setup σ M) (slot : σ) (holder : Holder M) (reports : Reports) :
    Journal.Sound c ⟨.start slot holder reports, []⟩ where
  answered pre a post h := by simp at h
  attempts := Nat.le_refl _
  saves := Nat.le_refl _

/-- **Every step keeps it.** -/
theorem Journal.Sound.step {c : Setup σ M} {j k : Journal σ M} {l : Machine.Label σ M} (h : j.Sound c)
    (hstep : j.step c l = some k) : k.Sound c := by
  obtain ⟨m, hm, rfl⟩ := Option.map_eq_some_iff.mp hstep
  have note := note_of_step hm
  generalize j.machine.event? c l = e at note
  refine ⟨fun pre a post hevents => ?_, ?_, ?_⟩
  · cases e with
    | none =>
      rw [Option.toList_none, List.append_nil] at hevents
      -- nothing new has happened, but the step may have changed the signal or the writer
      have hold := note.answered (h.answered pre a post hevents)
      rwa [Option.toList_none, List.append_nil] at hold
    | some e =>
      rcases eq_or_exists_of_concat hevents with ⟨-, rfl, rfl⟩ | ⟨init, rfl, hj⟩
      · exact note.answered_nil
      · exact note.answered (h.answered pre a init hj)
  · have hnote := note.attempts_le
    have hbefore := h.attempts
    simp only [List.countP_append]
    omega
  · have hnote := note.saves_le
    have hbefore := h.saves
    simp only [List.countP_append]
    omega

theorem Journal.sound_of_reachable {c : Setup σ M} {slot : σ} {holder : Holder M} {reports : Reports}
    {j : Journal σ M} (h : Reachable (Journal.step c) ⟨.start slot holder reports, []⟩ j) : j.Sound c :=
  h.induction (Journal.sound_start c slot holder reports) fun _ _ _ hj hs => hj.step hs

/-- A request waits if nothing has happened to it, and otherwise the first thing that has happened is that it
has been dropped or that the writer has taken it. -/
theorem Awaited.cases {pending : Option Flush.Pending} {es : List (Event M)} (h : Awaited pending es) :
    (∀ e ∈ es, e.takes = false) ∧ pending.isSome = true ∨
      ∃ as e bs, es = as ++ e :: bs ∧ (∀ a ∈ as, a.takes = false) ∧
        (e = .dropped ∨ e = .decided .flush ∨ e = .decided (.shutdown true)) := by
  unfold Awaited at h
  split at h <;> rename_i hfind
  · exact .inl ⟨fun e he => Bool.of_not_eq_true (List.find?_eq_none.mp hfind e he), h⟩
  · rename_i e
    obtain ⟨-, as, bs, rfl, has⟩ := List.find?_eq_some_iff_append.mp hfind
    exact .inr ⟨as, e, bs, rfl, fun a ha => (Bool.not_eq_true' _).mp (has a ha), h⟩

section Serves

variable {c : Setup σ M} {d : Flush.Decision} {es : List (Event M)}

theorem Complete.serves (h : Complete c d es) : Serves c d es := by
  unfold Complete at h
  unfold Serves
  split at h
  · rw [if_pos (by assumption)]
    obtain ⟨fs, result, hattempt, rfl⟩ := h
    exact ⟨fs, result, hattempt, List.prefix_refl _⟩
  · rwa [if_neg (by assumption)]

/-- What has been noted of a save is part of what will have been noted in the end. -/
theorem Save.Noted.exists_attempt {p : Save M} (h : p.Noted c es) :
    ∃ fs result, Attempt c fs result ∧ es <+: fs ++ [.ended result] := by
  cases p with
  | enter | capture =>
    simp only [Save.Noted] at h
    subst h
    exact ⟨_, _, .nothing, List.nil_prefix⟩
  | seed model | receive model | encode model =>
    simp only [Save.Noted] at h
    subst h
    exact ⟨_, _, .failed model MemorySlot.refusal, List.prefix_append _ _⟩
  | write model header blob =>
    obtain ⟨rfl, hblob⟩ := h
    exact ⟨_, _, .saved model header blob hblob, [.saved model header blob, .ended _], rfl⟩
  | commit model r | publish model r | record r => exact ⟨es, _, h, List.prefix_append _ _⟩
  | leave result | done result => exact ⟨es, _, h, List.prefix_append _ _⟩

theorem Followed.serves {w : Writer M} (h : Followed c w d es) : Serves c d (efforts es) := by
  unfold Followed at h
  split at h
  · exact h.serves
  · cases w with
    | ready | stopped => exact Complete.serves h
    | complaining | finishing => exact h.2.serves
    | saving d' p =>
      obtain ⟨-, hattempts, hp⟩ := h
      rw [Serves, if_pos hattempts]
      exact hp.exists_attempt

end Serves

section Steps

variable {c : Setup σ M} {j k : Journal σ M} {l : Machine.Label σ M} {model : M} {header : Snapshot.Header}
  {blob : Bytes}

theorem Journal.note_of_concat {a : Event M} (hstep : j.step c l = some k)
    (hevents : k.events = j.events ++ [a]) : Note c j.machine k.machine (some a) := by
  obtain ⟨m, hm, rfl⟩ := Option.map_eq_some_iff.mp hstep
  have ha : (j.machine.event? c l).toList = [a] := List.append_cancel_left hevents
  rw [← Option.toList_eq_singleton_iff.mp ha]
  exact note_of_step hm

/-- What a save of the writer asks for is the model that the holder has at this moment. -/
theorem Journal.eq_current_of_captured {captured : Option M} (hstep : j.step c l = some k)
    (hevents : k.events = j.events ++ [.captured captured]) :
    captured = j.machine.shared.holder.current := by
  have note := Journal.note_of_concat hstep hevents
  generalize he : some (Event.captured captured) = e at note
  cases note with
  | save o d p p' was now step =>
    cases p with
    | capture =>
      cases he
      rfl
    | write =>
      simp only [Save.event?] at he
      split at he <;> cases he
    | _ => cases he
  | _ => cases he

theorem Save.content_of_event? {content : σ → Option Bytes} (hslot : c.slot.Lawful content) {me : Actor}
    {o : Outside} {s s' : Shared σ M} {p p' : Save M}
    (he : p.event? c o s = some (.saved model header blob)) (hstep : p.step c me o s = some (p', s')) :
    content s'.slot = some blob := by
  cases p with
  | write =>
    simp only [Save.step] at hstep
    split at hstep <;> rename_i hwrite <;> cases hstep <;> simp only [Save.event?, hwrite] at he <;> cases he
    exact content_of_write hslot hwrite
  | _ => cases he

/-- When a save of the writer fills the slot, this is what the slot holds. -/
theorem Journal.content_of_saved {content : σ → Option Bytes} (hslot : c.slot.Lawful content)
    (hstep : j.step c l = some k) (hevents : k.events = j.events ++ [.saved model header blob]) :
    content k.machine.shared.slot = some blob := by
  have note := Journal.note_of_concat hstep hevents
  generalize he : some (Event.saved model header blob) = e at note
  cases note with
  | save o d p p' was now step => exact Save.content_of_event? hslot he.symm step
  | _ => cases he

end Steps

/-- **Requests are served.** A request that is accepted waits, and something is pending then, until it is
dropped or the writer decides to make a save or to stop.  For a decision, and before its next one, the writer
makes at most one save: after the decision it asks the holder for its model, and what it fills the slot with
is made of the model that the holder has then.  It never sets out more often than a request has found nothing
pending, and never fills the slot more often than it sets out. -/
theorem requests_are_served {c : Setup σ M} {slot : σ} {holder : Holder M} {reports : Reports}
    {j : Journal σ M} (h : Reachable (Journal.step c) ⟨.start slot holder reports, []⟩ j) :
    (∀ pre o post, j.events = pre ++ .requested o :: post → o ≠ .closed →
        (∀ e ∈ post, e.takes = false) ∧ j.machine.shared.signal.pending.isSome = true ∨
          ∃ as e bs, post = as ++ e :: bs ∧ (∀ a ∈ as, a.takes = false) ∧
            (e = .dropped ∨ e = .decided .flush ∨ e = .decided (.shutdown true))) ∧
      (∀ pre d post, j.events = pre ++ .decided d :: post → Serves c d (efforts post)) ∧
      (∀ l k, j.step c l = some k →
        (∀ model, k.events = j.events ++ [.captured model] → model = j.machine.shared.holder.current) ∧
        ∀ content model h blob, c.slot.Lawful content → k.events = j.events ++ [.saved model h blob] →
          content k.machine.shared.slot = some blob) ∧
      j.events.countP c.isAttempt ≤ j.events.countP Event.isScheduled ∧
      j.events.countP Event.isSaved ≤ j.events.countP c.isAttempt := by
  have hsound := Journal.sound_of_reachable h
  refine ⟨fun pre o post hevents ho => ?_, fun pre d post hevents => ?_, fun l k hstep => ⟨?_, ?_⟩, ?_, ?_⟩
  · exact (hsound.answered pre _ post hevents ho).cases
  · exact Followed.serves (hsound.answered pre _ post hevents)
  · exact fun model hevents => Journal.eq_current_of_captured hstep hevents
  · exact fun content model header blob hslot hevents => Journal.content_of_saved hslot hstep hevents
  · exact Nat.le_trans (Nat.le_add_right _ _) hsound.attempts
  · exact Nat.le_trans (Nat.le_add_right _ _) hsound.saves

/-- While the writer makes a save, the host changes its model and asks for another one. -/
def requestsRun : List (Machine.Label MemorySlot Value) :=
  .call 0 .schedule :: List.replicate 3 (.caller 0 {}) ++ List.replicate 4 (.writer {}) ++
    .host ⟨some (.string "b"), 1⟩ :: .call 0 .schedule :: List.replicate 3 (.caller 0 {}) ++
      List.replicate 21 (.writer {})

/-- The second request queues behind the save that is being made, and gets one of its own. -/
theorem requests_are_served_twice :
    ∃ j h₁ blob₁ r₁ h₂ blob₂ r₂, run (Journal.step textSetup) ⟨blankStart, []⟩ requestsRun = some j ∧
      j.events = [.requested .scheduled, .decided .flush, .captured (some (.string "a")),
        .requested .scheduled, .saved (.string "a") h₁ blob₁, .ended (.ok (some r₁)), .decided .flush,
        .captured (some (.string "b")), .saved (.string "b") h₂ blob₂, .ended (.ok (some r₂))] ∧
      Serves textSetup .flush [.captured (some (.string "b")), .saved (.string "b") h₂ blob₂,
        .ended (.ok (some r₂))] ∧
      j.events.countP Event.isSaved ≤ j.events.countP Event.isScheduled := by
  obtain ⟨j, h₁, blob₁, r₁, h₂, blob₂, r₂, hrun, hevents⟩ : ∃ j h₁ blob₁ r₁ h₂ blob₂ r₂,
      run (Journal.step textSetup) ⟨blankStart, []⟩ requestsRun = some j ∧
      j.events = [.requested .scheduled, .decided .flush, .captured (some (.string "a")),
        .requested .scheduled, .saved (.string "a") h₁ blob₁, .ended (.ok (some r₁)), .decided .flush,
        .captured (some (.string "b")), .saved (.string "b") h₂ blob₂, .ended (.ok (some r₂))] :=
    ⟨_, _, _, _, _, _, _, rfl, rfl⟩
  obtain ⟨-, hserves, -, hattempts, hsaves⟩ := requests_are_served ⟨_, hrun⟩
  exact ⟨j, h₁, blob₁, r₁, h₂, blob₂, r₂, hrun, hevents, hserves (j.events.take 6) _ _
    (by rw [hevents]; rfl),
    Nat.le_trans hsaves hattempts⟩

end SnapStore.Cache
