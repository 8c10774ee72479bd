import SnapStore.Proofs.Cache.Chronicle
import SnapStore.Proofs.Slot.File

namespace SnapStore

/-!
# What the last save leaves

A slot in a file is not `Lawful` for every path: a write that fails may have created directories, and only
then does the path lead to a file.  But what has once been written stays until it is written over or
removed, and this is enough for the last save.

* `Slot.Keeps` — a slot keeps what was written last; `FileSlot.keeps` — a slot in a file does, whatever its
  path.
* `Cache.Touch` — what a step of a cache does to its slot; `Cache.Turn.touch` says that this is all.
* `Cache.content_of_last_save` — as long as nobody else touches the slot, it holds the blob of the last save,
  whose header is the one of the report.
-/

/-! ### Slots that keep what was written -/

/-- A slot holds what was written last; an access that fails takes nothing away. -/
structure Slot.Keeps {σ : Type} (slot : Slot σ) (content : σ → Option Bytes) : Prop where
  write_ok : ∀ {b s s'}, slot.write b s = (.ok (), s') → content s' = some b
  write_error : ∀ {b s e s' x}, slot.write b s = (.error e, s') → content s = some x → content s' = some x
  remove_error : ∀ {s e s'}, slot.remove s = (.error e, s') → content s' = content s

namespace FileSlot

open FileTree

/-- The contents of the file that a path leads to, if there is one. -/
def contents (p : Path) (t : FileTree) : Option Bytes := (t.readFile p).toOption

theorem contents_eq_some_iff {p : Path} {t : FileTree} {b : Bytes} :
    contents p t = some b ↔ t.readFile p = .ok b := by
  unfold contents
  cases t.readFile p <;> simp [Except.toOption]

/-- **A slot in a file** keeps what was written last. -/
theorem keeps (p : Path) : (slot p).Keeps (contents p) where
  write_ok {b t t'} h := by
    obtain ⟨u, -, ⟨⟨e, he⟩, -⟩ | ⟨-, dir, name, ht, hfree, hsame⟩⟩ := disk_sound.write (p := p) (b := b) h
    · cases he
    · have hplace : dir ++ [name] ≠ [] := by simp
      have hdirs : u.Dirs t' := (dirs_put hplace hfree _).trans hsame.dirs
      have hfind : t'.find? (dir ++ [name]) = some (.file b) := by
        rw [show t'.find? (dir ++ [name]) = _ from hsame.find? _, find?_put u hplace, if_pos rfl]
      exact contents_eq_some_iff.mpr (readFile_eq_ok_iff.mpr
        ⟨_, resolve_of_target (target_of_dirs hdirs ht) hfind (.inl rfl), hfind⟩)
  write_error h hx :=
    contents_eq_some_iff.mpr ((growsBy_of_write_error disk_sound h).readFile (contents_eq_some_iff.mp hx))
  remove_error h := by rw [remove_error h]

end FileSlot

namespace Cache

variable {σ M : Type} {c : Setup σ M} {m m' : Machine σ M} {l : Machine.Label σ M} {me : Actor} {o : Outside}

/-! ### What a step does to the slot -/

/-- What a step of a cache does to its slot. -/
inductive Touch (c : Setup σ M) (m m' : Machine σ M) (l : Machine.Label σ M) : Prop
  | none (slot : m'.shared.slot = m.shared.slot) (deed : m.deed? c l = none)
  | write (a : Actor) (o : Outside) (model : M) (h : Snapshot.Header) (blob : Bytes)
      (was : m.activity a = .save (.write model h blob))
      (change : o.change (c.slot.write blob) m.shared.slot = (.ok (), m'.shared.slot))
      (deed : m.deed? c l = some (.saved model h blob))
  | writeFailed (o : Outside) (blob : Bytes) (e : CacheError)
      (change : o.change (c.slot.write blob) m.shared.slot = (.error e, m'.shared.slot))
      (deed : m.deed? c l = none)
  | remove (deed : m.deed? c l = some .removed)
  | removeFailed (o : Outside) (e : CacheError)
      (change : o.change c.slot.remove m.shared.slot = (.error e, m'.shared.slot))
      (deed : m.deed? c l = none)
  | stranger (slot : σ) (label : l = .stranger slot)

theorem Load.slot_eq {s s' : Shared σ M} {p p' : Load M} (h : p.step c me o s = some (p', s')) :
    s'.slot = s.slot := by
  cases p with
  | peek | recheck =>
    simp only [Load.step] at h
    split at h <;> cases h <;> rfl
  | enter | install =>
    simp only [Load.step] at h
    split at h <;> cases h
    rfl
  | receive found =>
    simp only [Load.step] at h
    split at h
    · cases h
      rfl
    · cases h
      rfl
    · split at h <;> cases h <;> rfl
  | fail e =>
    cases h
    split <;> rfl
  | consult | fetch | complain | publish | leave =>
    cases h
    rfl
  | done result => cases h

/-- A save leaves the slot alone unless it writes. -/
theorem Save.touch {s s' : Shared σ M} {p p' : Save M} (h : p.step c me o s = some (p', s')) :
    s'.slot = s.slot ∧ p.deed? c o s.slot = none ∨ ∃ model header blob, p = .write model header blob ∧
      (o.change (c.slot.write blob) s.slot = (.ok (), s'.slot) ∧
          p.deed? c o s.slot = some (.saved model header blob) ∨
        ∃ e, o.change (c.slot.write blob) s.slot = (.error e, s'.slot) ∧ p.deed? c o s.slot = none) := by
  cases p with
  | write model header blob =>
    simp only [Save.step] at h
    split at h <;> rename_i hchange <;> cases h
    · exact .inr ⟨model, header, blob, rfl, .inl ⟨hchange, by simp only [deed?, hchange]⟩⟩
    · exact .inr ⟨model, header, blob, rfl, .inr ⟨_, hchange, by simp only [deed?, hchange]⟩⟩
  | enter | capture | seed | receive | encode =>
    simp only [Save.step] at h
    split at h <;> cases h <;> exact .inl ⟨rfl, rfl⟩
  | commit | publish | record | leave =>
    cases h
    exact .inl ⟨rfl, rfl⟩
  | done result => cases h

/-- An invalidation leaves the slot alone unless it removes. -/
theorem Invalidation.touch {s s' : Shared σ M} {p p' : Invalidation} (h : p.step c me o s = some (p', s')) :
    s'.slot = s.slot ∧ p.deed? (M := M) c o s.slot = none ∨ p.deed? (M := M) c o s.slot = some .removed ∨
      ∃ e, o.change c.slot.remove s.slot = (.error e, s'.slot) ∧ p.deed? (M := M) c o s.slot = none := by
  cases p with
  | remove =>
    simp only [Invalidation.step] at h
    split at h <;> rename_i hchange <;> cases h
    · exact .inr (.inl (by simp only [deed?, hchange]))
    · exact .inr (.inr ⟨_, hchange, by simp only [deed?, hchange]⟩)
  | enterLoad | enterWrite =>
    simp only [Invalidation.step] at h
    split at h <;> cases h
    exact .inl ⟨rfl, rfl⟩
  | cancel | forget | absolve | leave =>
    cases h
    exact .inl ⟨rfl, rfl⟩
  | done result => cases h

/-- **What a step does to the slot** is nothing, or what a write or a removal does to it, unless the slot is
changed from elsewhere. -/
theorem Turn.touch (turn : Turn c m m' l) : Touch c m m' l := by
  cases turn with
  | load me o p p' was now others step =>
    exact .none (Load.slot_eq step) (by rw [Machine.deed?_of, was]; rfl)
  | save me o p p' was now others step =>
    have hdeed : m.deed? c (.of me o) = p.deed? c o m.shared.slot := by
      rw [Machine.deed?_of, was]
      rfl
    rcases Save.touch step with ⟨hslot, hd⟩ | ⟨model, header, blob, rfl, ⟨hchange, hd⟩ | ⟨e, hchange, hd⟩⟩
    · exact .none hslot (hdeed.trans hd)
    · exact .write me o model header blob was hchange (hdeed.trans hd)
    · exact .writeFailed o blob e hchange (hdeed.trans hd)
  | invalidate me o p p' was now others step =>
    have hdeed : m.deed? c (.of me o) = p.deed? c o m.shared.slot := by
      rw [Machine.deed?_of, was]
      rfl
    rcases Invalidation.touch (M := M) step with ⟨hslot, hd⟩ | hd | ⟨e, hchange, hd⟩
    · exact .none hslot (hdeed.trans hd)
    · exact .remove (hdeed.trans hd)
    · exact .removeFailed o e hchange (hdeed.trans hd)
  | begin i call last was eq =>
    subst eq
    exact .none rfl rfl
  | edge me o was others core aside =>
    exact .none core.slot (by rw [Machine.deed?_of, Activity.deed?_of_isAtEdge was])
  | host holder same shared_eq => exact .none (by rw [shared_eq]) rfl
  | stranger slot same shared_eq => exact .stranger slot rfl

/-! ### The blob of the last save -/

/-- Whatever a thread is about to write has a header, which its report will show. -/
def Machine.Genuine (m : Machine σ M) : Prop :=
  ∀ a model h blob, m.activity a = .save (.write model h blob) → Snapshot.readHeader blob = .ok h

theorem Machine.genuine_start (slot : σ) (holder : Holder M) (reports : Reports) :
    (Machine.start slot holder reports).Genuine := by
  intro a model h blob ha
  cases a <;> cases ha

/-- A save is about to write only what it has made of its header. -/
theorem Save.readHeader_of_step {s s' : Shared σ M} {p : Save M} {model : M} {header : Snapshot.Header}
    {blob : Bytes} (h : p.step c me o s = some (.write model header blob, s')) :
    Snapshot.readHeader blob = .ok header := by
  cases p with
  | encode model' =>
    simp only [Save.step] at h
    split at h <;> rename_i hblob <;> cases h
    exact Snapshot.readHeader_encode (Outside.compressed_ok hblob)
  | enter | capture | seed | receive | write =>
    simp only [Save.step] at h
    split at h <;> cases h
  | commit | publish | record | leave => cases h
  | done result => cases h

theorem Machine.Genuine.turn (h : m.Genuine) (turn : Turn c m m' l) : m'.Genuine := by
  intro a model header blob ha
  cases turn.course a with
  | same eq => exact h a model header blob (eq ▸ ha)
  | load o p p' label was now step | invalidate o p p' label was now step =>
    rw [now] at ha
    cases ha
  | save o p p' label was now step =>
    rw [now, Activity.save.injEq] at ha
    subst ha
    exact Save.readHeader_of_step step
  | begin i call label was now =>
    rw [now] at ha
    cases call <;> cases ha
  | edge o label was aside =>
    have hedge := aside.isAtEdge
    rw [ha] at hedge
    cases hedge

/-- The report of what has been done to the slot, if it was a save: by `Save.report?_eq_some_iff`, it is the
one that the save answers. -/
def Deed.report? : Deed M → Option SaveReport
  | .saved _ h blob => some ⟨h, blob.length⟩
  | .removed => none

/-- A report is about the blob that the slot holds. -/
def SaveReport.Tells (r : SaveReport) (blob : Bytes) : Prop :=
  Snapshot.readHeader blob = .ok r.header ∧ r.bytes = blob.length

/-- The slot holds what the last save has reported. -/
structure Chronicle.Holds (content : σ → Option Bytes) (w : Chronicle σ M) : Prop where
  genuine : w.machine.Genuine
  last : ∀ d r, w.deeds.getLast? = some d → d.report? = some r →
    ∃ blob, content w.machine.shared.slot = some blob ∧ r.Tells blob

/-- **Every step keeps it**, as long as nobody else changes the slot. -/
theorem Chronicle.Holds.step {content : σ → Option Bytes} {w v : Chronicle σ M} (h : w.Holds content)
    (hslot : c.slot.Keeps content) (hl : ∀ slot, l ≠ .stranger slot) (hstep : w.step c l = some v) :
    v.Holds content := by
  obtain ⟨m, hm, rfl⟩ := Option.map_eq_some_iff.mp hstep
  have turn := turn_of_step hm
  refine ⟨h.genuine.turn turn, fun d r hd hr => ?_⟩
  -- a step without a deed leaves the last one as it was
  have hsame (hdeed : w.machine.deed? c l = none)
      (hkeeps : ∀ blob, content w.machine.shared.slot = some blob → content m.shared.slot = some blob) :
      ∃ blob, content m.shared.slot = some blob ∧ r.Tells blob := by
    simp only [hdeed, Option.toList_none, List.append_nil] at hd
    obtain ⟨blob, hblob, htells⟩ := h.last d r hd hr
    exact ⟨blob, hkeeps blob hblob, htells⟩
  cases turn.touch with
  | none slot deed => exact hsame deed fun _ hb => by rw [slot, hb]
  | write a o model header blob was change deed =>
    simp only [deed, Option.toList_some, List.getLast?_append, List.getLast?_singleton, Option.some_or,
      Option.some.injEq] at hd
    subst hd
    cases hr
    exact ⟨blob, hslot.write_ok (Outside.change_ok change), h.genuine a model header blob was, rfl⟩
  | writeFailed o blob e change deed =>
    refine hsame deed fun _ hb => ?_
    rcases Outside.change_error change with hwrite | hslot'
    · exact hslot.write_error hwrite hb
    · rw [hslot', hb]
  | remove deed =>
    simp only [deed, Option.toList_some, List.getLast?_append, List.getLast?_singleton, Option.some_or,
      Option.some.injEq] at hd
    subst hd
    cases hr
  | removeFailed o e change deed =>
    refine hsame deed fun _ hb => ?_
    rcases Outside.change_error change with hremove | hslot'
    · rw [hslot.remove_error hremove, hb]
    · rw [hslot', hb]
  | stranger slot label => exact absurd label (hl slot)

/-- **After the last save.** Whatever has been done to a cache and its slot at first: when nobody else has
touched the slot since, and the last that the cache has done to it since is a save, then the slot holds a
blob of the size and with the header that the save has reported. -/
theorem content_of_last_save {content : σ → Option Bytes} (hslot : c.slot.Keeps content) {slot : σ}
    {holder : Holder M} {reports : Reports} (hm : Reachable (Machine.step c) (.start slot holder reports) m)
    {ls : List (Machine.Label σ M)} {w : Chronicle σ M} (hrun : run (Chronicle.step c) ⟨m, []⟩ ls = some w)
    (hls : ∀ l ∈ ls, ∀ slot, l ≠ .stranger slot) {d : Deed M} {r : SaveReport}
    (hd : w.deeds.getLast? = some d) (hr : d.report? = some r) :
    ∃ blob, content w.machine.shared.slot = some blob ∧ r.Tells blob := by
  have hgenuine : m.Genuine := hm.induction (Machine.genuine_start slot holder reports)
    fun _ _ _ hg hs => hg.turn (turn_of_step hs)
  have hstart : Chronicle.Holds content (⟨m, []⟩ : Chronicle σ M) := ⟨hgenuine, fun _ _ h => by cases h⟩
  exact (run_induction hrun hls hstart fun _ _ _ hw hl hs => hw.step hslot hl hs).last d r hd hr

end Cache

end SnapStore
