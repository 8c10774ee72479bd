import SnapStore.Proofs.Cache.Steps
import SnapStore.Proofs.Slot
import SnapStore.Proofs.Snapshot.RoundTrip

namespace SnapStore.Cache

/-!
# What is done to the slot

The steps of saves and invalidations that change the slot are its history; everything else that a cache
does leaves the slot alone.

* `Deed` is what a thread has done to the slot.  `Save.report?_eq_some_iff` and
  `Invalidation.hasRemoved_iff` say that those that go well are those that do their deed.
* `Chronicle` is a cache with what has been done to its slot, in the order of the write lane.
* `Load.effect`, `Save.effect`, `Invalidation.effect` — what a step means for the slot and the snapshot in
  memory, given what the thread knows.
-/

variable {σ M : Type}

/-! ### A slot that may fail -/

section Slot

variable {slot : Slot σ} {content : σ → Option Bytes} {o : Outside} {s s' : σ} {b : Bytes}
  {e : CacheError}

/-- What is read from a slot that does not fail is what the slot has answered. -/
theorem eq_of_outcome {α : Type} {r : Except CacheError α} {a : α} (h : o.outcome r = .ok a) :
    r = .ok a := by
  unfold Outside.outcome at h
  split at h
  · cases h
  · exact h

/-- A blob that has been made is what the compressor makes of it. -/
theorem Outside.compressed_ok {r : Except CacheError Bytes} (h : o.compressed r = .ok b) : r = .ok b := by
  unfold compressed at h
  split at h
  · exact h
  · cases h
  · cases h

/-- A change that goes well is what the slot makes of it. -/
theorem Outside.change_ok {α : Type} {f : σ → Except CacheError α × σ} {a : α}
    (h : o.change f s = (.ok a, s')) : f s = (.ok a, s') := by
  unfold change at h
  split at h
  · cases h
  · exact h

/-- A change that fails has failed in the slot, or the slot was kept from trying. -/
theorem Outside.change_error {α : Type} {f : σ → Except CacheError α × σ}
    (h : o.change f s = (.error e, s')) : f s = (.error e, s') ∨ s' = s := by
  unfold change at h
  split at h
  · cases h
    exact .inr rfl
  · exact .inl h

theorem content_of_write (h : slot.Lawful content) (hw : o.change (slot.write b) s = (.ok (), s')) :
    content s' = some b :=
  h.write_ok (Outside.change_ok hw)

theorem content_of_failed_write (h : slot.Lawful content)
    (hw : o.change (slot.write b) s = (.error e, s')) : content s' = content s := by
  rcases Outside.change_error hw with hwrite | hsame
  · exact h.write_error hwrite
  · rw [hsame]

theorem content_of_remove (h : slot.Lawful content) {r : Bool}
    (hr : o.change slot.remove s = (.ok r, s')) : content s' = none :=
  h.remove_ok (Outside.change_ok hr)

theorem content_of_failed_remove (h : slot.Lawful content)
    (hr : o.change slot.remove s = (.error e, s')) : content s' = content s := by
  rcases Outside.change_error hr with hremove | hsame
  · exact h.remove_error hremove
  · rw [hsame]

end Slot

/-! ### What is done to the slot -/

/-- What a thread has done to the slot. -/
inductive Deed (M : Type)
  | /-- It has saved a model. -/ saved (model : M) (h : Snapshot.Header) (blob : Bytes)
  | /-- It has removed the blob, or found none. -/ removed

/-- What the slot holds after that. -/
def Deed.left : Deed M → Option Bytes
  | .saved _ _ blob => some blob
  | .removed => none

/-- The model that a load finds after that. -/
def Deed.model? : Deed M → Option M
  | .saved model _ _ => some model
  | .removed => none

/-- What the slot holds after several deeds. -/
def leftBy (initial : Option Bytes) (deeds : List (Deed M)) : Option Bytes :=
  match deeds.getLast? with
  | some d => d.left
  | none => initial

/-- What a step of a save does to the slot, if it succeeds. -/
def Save.deed? (c : Setup σ M) (o : Outside) (slot : σ) : Save M → Option (Deed M)
  | .write model h blob =>
    match (o.change (c.slot.write blob) slot).1 with
    | .ok () => some (.saved model h blob)
    | .error _ => none
  | _ => none

/-- What a step of an invalidation does to the slot, if it succeeds. -/
def Invalidation.deed? (c : Setup σ M) (o : Outside) (slot : σ) : Invalidation → Option (Deed M)
  | .remove =>
    match (o.change c.slot.remove slot).1 with
    | .ok _ => some .removed
    | .error _ => none
  | _ => none

/-- What a step of a thread does to the slot, if it succeeds. -/
def Activity.deed? (c : Setup σ M) (o : Outside) (slot : σ) : Activity M → Option (Deed M)
  | .save p => p.deed? c o slot
  | .invalidate p => p.deed? c o slot
  | _ => none

/-- What a step does to the slot, if it succeeds. -/
def Machine.deed? (c : Setup σ M) (m : Machine σ M) : Machine.Label σ M → Option (Deed M)
  | .caller i o => (m.activity (.caller i)).deed? c o m.shared.slot
  | .writer o => (m.activity .writer).deed? c o m.shared.slot
  | _ => none

theorem Machine.deed?_of (c : Setup σ M) (m : Machine σ M) (me : Actor) (o : Outside) :
    m.deed? c (.of me o) = (m.activity me).deed? c o m.shared.slot := by
  cases me <;> rfl

theorem Activity.deed?_of_isAtEdge {c : Setup σ M} {o : Outside} {slot : σ} {a : Activity M}
    (h : a.isAtEdge = true) : a.deed? c o slot = none := by
  cases a with
  | rest | load => rfl
  | save p => cases p <;> first | rfl | cases h
  | invalidate p => cases p <;> first | rfl | cases h

/-- The report of a save that has written its blob: this is what it will answer. -/
def Save.report? : Save M → Option SaveReport
  | .commit _ r | .publish _ r | .record r | .leave (.ok (some r)) | .done (.ok (some r)) => some r
  | _ => none

/-- Whether an invalidation has removed the blob: only then will it answer that all went well. -/
def Invalidation.hasRemoved : Invalidation → Bool
  | .forget | .absolve | .leave (.ok _) | .done (.ok _) => true
  | _ => false

/-- **Success of a save.** A save has a report exactly if it has done its deed. -/
theorem Save.report?_eq_some_iff {c : Setup σ M} {me : Actor} {o : Outside} {s s' : Shared σ M}
    {p p' : Save M} (h : p.step c me o s = some (p', s')) {r : SaveReport} :
    p'.report? = some r ↔ p.report? = some r ∨ ∃ model header blob,
      p.deed? c o s.slot = some (.saved model header blob) ∧ r = ⟨header, blob.length⟩ := by
  cases p with
  | enter | capture | seed | receive | encode =>
    simp only [Save.step] at h
    split at h <;> cases h <;> simp [report?, deed?]
  | write model header blob =>
    -- the only step at which a report comes up
    simp only [Save.step] at h
    split at h <;> rename_i hw <;> cases h <;> simp [report?, deed?, hw, eq_comm]
  | commit | publish | record =>
    cases h
    simp [report?, deed?]
  | leave result =>
    cases h
    rcases result with e | _ | r <;> simp [report?, deed?]
  | done result => cases h

/-- **Success of an invalidation.** An invalidation goes well exactly if it has done its deed. -/
theorem Invalidation.hasRemoved_iff {c : Setup σ M} {me : Actor} {o : Outside} {s s' : Shared σ M}
    {p p' : Invalidation} (h : p.step c me o s = some (p', s')) :
    p'.hasRemoved = true ↔ p.hasRemoved = true ∨ p.deed? c o s.slot = some (.removed : Deed M) := by
  cases p with
  | cancel | forget | absolve =>
    cases h
    simp [hasRemoved, deed?]
  | enterLoad | enterWrite =>
    simp only [Invalidation.step] at h
    split at h <;> cases h
    simp [hasRemoved, deed?]
  | remove =>
    simp only [Invalidation.step] at h
    split at h <;> rename_i hr <;> cases h <;> simp [hasRemoved, deed?, hr]
  | leave result =>
    cases h
    cases result <;> simp [hasRemoved, deed?]
  | done result => cases h

/-- A cache with what has been done to its slot, in the order of the write lane. -/
structure Chronicle (σ M : Type) where
  machine : Machine σ M
  deeds : List (Deed M) := []

/-- One step of one thread, or a change from elsewhere. -/
def Chronicle.step (c : Setup σ M) (l : Machine.Label σ M) (w : Chronicle σ M) :
    Option (Chronicle σ M) :=
  (w.machine.step c l).map fun machine => ⟨machine, w.deeds ++ (w.machine.deed? c l).toList⟩

/-- The chronicle only looks on: every run of the cache is a run of the chronicle. -/
theorem Chronicle.exists_run {c : Setup σ M} {w : Chronicle σ M} {ls : List (Machine.Label σ M)}
    {m : Machine σ M} (h : run (Machine.step c) w.machine ls = some m) :
    ∃ v, run (Chronicle.step c) w ls = some v ∧ v.machine = m := by
  refine exists_run_of_run (fun l w => ?_) h
  rw [Chronicle.step, Option.map_map]
  exact Option.map_id' ..

/-! ### What a step means for the slot and the snapshot in memory -/

/-- A blob gives back a model. -/
def Decodes (c : Setup σ M) (blob : Option Bytes) (model : M) : Prop :=
  ∃ b h, blob = some b ∧ Snapshot.decode c.codec c.modelVersion b = .ok (h, model)

/-- What a load knows about the slot, as long as nobody has changed it. -/
def Load.Knows (c : Setup σ M) (blob : Option Bytes) : Load M → Prop
  | .receive found => ∀ b, found = .ok b → b = blob
  | .install _ model | .publish _ model => Decodes c blob model
  | _ => True

/-- What a save knows about its model and about the slot. -/
def Save.Knows (c : Setup σ M) (valid : M → Prop) (blob : Option Bytes) : Save M → Prop
  | .seed model | .receive model _ | .encode model => valid model
  | .write model h b => Snapshot.decode c.codec c.modelVersion b = .ok (h, model)
  | .commit model _ | .publish model _ => Decodes c blob model
  | _ => True

/-- Whether a save has changed the slot and is about to change the snapshot in memory. -/
def Save.isCommitting : Save M → Bool
  | .commit .. | .publish .. => true
  | _ => false

/-- Whether a thread has saved and is about to change the snapshot in memory. -/
def Activity.isCommitting : Activity M → Bool
  | .save p => p.isCommitting
  | _ => false

/-- Whether a thread has changed the slot and is about to change the snapshot in memory. -/
def Activity.isChanging : Activity M → Bool
  | .save p => p.isCommitting
  | .invalidate .forget => true
  | _ => false

section Effects

variable {c : Setup σ M} {content : σ → Option Bytes} {valid : M → Prop} {me : Actor} {o : Outside}
  {s s' : Shared σ M}

/-- **A step of a load.** It leaves the slot alone.  It leaves the snapshot in memory alone as well, unless
there is none and the load publishes what it knows. -/
theorem Load.effect (hslot : c.slot.Lawful content) {p p' : Load M}
    (h : p.step c me o s = some (p', s')) :
    s'.slot = s.slot ∧ s'.holder = s.holder ∧
      (p.Knows c (content s.slot) → p'.Knows c (content s'.slot)) ∧
      (s'.current = s.current ∨
        ∃ header model, p = .publish header model ∧ s'.current = some (s.current.getD model)) := by
  cases p with
  | peek | recheck =>
    simp only [Load.step] at h
    split at h <;> cases h <;> exact ⟨rfl, rfl, fun _ => trivial, .inl rfl⟩
  | enter =>
    simp only [Load.step] at h
    split at h <;> cases h
    exact ⟨rfl, rfl, fun _ => trivial, .inl rfl⟩
  | consult =>
    cases h
    refine ⟨rfl, rfl, fun _ => ?_, .inl rfl⟩
    split <;> trivial
  | fetch =>
    -- what is read is what the slot holds at this moment
    cases h
    exact ⟨rfl, rfl, fun _ _ hread => hslot.read hread, .inl rfl⟩
  | receive found =>
    simp only [Load.step] at h
    split at h
    · cases h
      exact ⟨rfl, rfl, fun _ => trivial, .inl rfl⟩
    · cases h
      exact ⟨rfl, rfl, fun _ => trivial, .inl rfl⟩
    · rename_i blob hfound
      split at h
      · rename_i header model hdecode
        cases h
        refine ⟨rfl, rfl, fun hknows => ⟨blob, header, ?_, hdecode⟩, .inl rfl⟩
        -- a blob is only decoded if the slot has not failed
        exact (hknows _ (eq_of_outcome hfound)).symm
      · cases h
        exact ⟨rfl, rfl, fun _ => trivial, .inl rfl⟩
  | fail e =>
    cases h
    refine ⟨?_, ?_, fun _ => trivial, .inl ?_⟩ <;> split <;> rfl
  | complain | leave =>
    cases h
    exact ⟨rfl, rfl, fun _ => trivial, .inl rfl⟩
  | install header model =>
    simp only [Load.step] at h
    split at h <;> cases h
    exact ⟨rfl, rfl, id, .inl rfl⟩
  | publish header model =>
    cases h
    exact ⟨rfl, rfl, fun _ => trivial, .inr ⟨header, model, rfl, rfl⟩⟩
  | done result => cases h

/-- **A step of a save.** It leaves the slot and the snapshot in memory alone, or writes a blob that gives
back its model, or publishes its model. -/
theorem Save.effect (hslot : c.slot.Lawful content) (hcodec : c.codec.Faithful valid)
    (hholder : ∀ m, s.holder.current = some m → valid m) {p p' : Save M}
    (h : p.step c me o s = some (p', s')) (hknows : p.Knows c valid (content s.slot)) :
    s'.holder = s.holder ∧ p'.Knows c valid (content s'.slot) ∧
      (content s'.slot = content s.slot ∧ s'.current = s.current ∧ p.deed? c o s.slot = none ∧
          (p.isCommitting = true → p'.isCommitting = true) ∨
        (∃ model header blob, p.deed? c o s.slot = some (.saved model header blob) ∧
          Snapshot.decode c.codec c.modelVersion blob = .ok (header, model) ∧
          content s'.slot = some blob ∧ s'.current = s.current ∧ p.holdsWrite = true ∧
          p'.isCommitting = true) ∨
        ∃ model, content s'.slot = content s.slot ∧ s'.current = some model ∧
          p.deed? c o s.slot = none ∧ Decodes c (content s'.slot) model) := by
  cases p with
  | enter =>
    simp only [Save.step] at h
    split at h <;> cases h
    exact ⟨rfl, trivial, .inl ⟨rfl, rfl, rfl, fun h => by cases h⟩⟩
  | capture =>
    simp only [Save.step] at h
    split at h <;> cases h
    · rename_i model hmodel
      exact ⟨rfl, hholder model hmodel, .inl ⟨rfl, rfl, rfl, fun h => by cases h⟩⟩
    · exact ⟨rfl, trivial, .inl ⟨rfl, rfl, rfl, fun h => by cases h⟩⟩
  | seed model =>
    simp only [Save.step] at h
    split at h <;> cases h <;> exact ⟨rfl, hknows, .inl ⟨rfl, rfl, rfl, fun h => by cases h⟩⟩
  | receive model found =>
    simp only [Save.step] at h
    split at h <;> cases h <;> exact ⟨rfl, hknows, .inl ⟨rfl, rfl, rfl, fun h => by cases h⟩⟩
  | encode model =>
    simp only [Save.step] at h
    split at h <;> cases h
    · rename_i blob hblob
      -- here a valid model is needed, for others might not be read back
      exact ⟨rfl, Snapshot.decode_encode hcodec hknows rfl (Outside.compressed_ok hblob),
        .inl ⟨rfl, rfl, rfl, fun h => by cases h⟩⟩
    · exact ⟨rfl, trivial, .inl ⟨rfl, rfl, rfl, fun h => by cases h⟩⟩
  | write model header blob =>
    simp only [Save.step] at h
    split at h <;> rename_i hw <;> cases h
    · -- the deed: from now on the slot holds the blob
      have hblob := content_of_write hslot hw
      refine ⟨rfl, ⟨blob, header, hblob, hknows⟩, .inr (.inl ⟨model, header, blob, ?_, hknows, hblob, rfl,
        rfl, rfl⟩)⟩
      simp only [Save.deed?, hw]
    · refine ⟨rfl, trivial, .inl ⟨content_of_failed_write hslot hw, rfl, ?_, fun h => by cases h⟩⟩
      simp only [Save.deed?, hw]
  | commit model r =>
    cases h
    exact ⟨rfl, hknows, .inl ⟨rfl, rfl, rfl, fun _ => rfl⟩⟩
  | publish model r =>
    cases h
    exact ⟨rfl, trivial, .inr (.inr ⟨model, rfl, rfl, rfl, hknows⟩)⟩
  | record r =>
    cases h
    exact ⟨rfl, trivial, .inl ⟨rfl, rfl, rfl, fun h => by cases h⟩⟩
  | leave result =>
    cases h
    exact ⟨rfl, trivial, .inl ⟨rfl, rfl, rfl, fun h => by cases h⟩⟩
  | done result => cases h

/-- **A step of an invalidation.** It leaves the slot and the snapshot in memory alone, or empties the
slot, or forgets the snapshot. -/
theorem Invalidation.effect (hslot : c.slot.Lawful content) {p p' : Invalidation}
    (h : p.step c me o s = some (p', s')) :
    s'.holder = s.holder ∧
      (content s'.slot = content s.slot ∧ s'.current = s.current ∧
          p.deed? (M := M) c o s.slot = none ∧ p ≠ .forget ∨
        content s'.slot = none ∧ s'.current = s.current ∧ p.deed? (M := M) c o s.slot = some .removed ∧
          p = .remove ∧ p' = .forget ∨
        content s'.slot = content s.slot ∧ s'.current = none ∧ p.deed? (M := M) c o s.slot = none ∧
          p = .forget) := by
  cases p with
  | cancel | absolve | leave =>
    cases h
    exact ⟨rfl, .inl ⟨rfl, rfl, rfl, by simp⟩⟩
  | enterLoad | enterWrite =>
    simp only [Invalidation.step] at h
    split at h <;> cases h
    exact ⟨rfl, .inl ⟨rfl, rfl, rfl, by simp⟩⟩
  | remove =>
    simp only [Invalidation.step] at h
    split at h <;> rename_i hr <;> cases h
    · refine ⟨rfl, .inr (.inl ⟨content_of_remove hslot hr, rfl, ?_, rfl, rfl⟩)⟩
      simp only [Invalidation.deed?, hr]
    · refine ⟨rfl, .inl ⟨content_of_failed_remove hslot hr, rfl, ?_, by simp⟩⟩
      simp only [Invalidation.deed?, hr]
  | forget =>
    cases h
    exact ⟨rfl, .inr (.inr ⟨rfl, rfl, rfl, rfl⟩)⟩
  | done result => cases h

end Effects

end SnapStore.Cache
