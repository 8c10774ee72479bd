import SnapStore.Proofs.Cache.Verdicts
import SnapStore.Proofs.Cache.Alone
import SnapStore.Proofs.Cache.FirstSave
import SnapStore.Proofs.Cache.Invalidation

namespace SnapStore.Cache

/-!
# Removed blobs and bad blobs

A load that has read a blob before it is removed is out of the way when the removal begins, for the removal
takes the load lane first.  So what is put into memory later has been read later.  The mark of a bad blob
is set by loads and cleared by saves, which do not wait for each other; nevertheless, when no save is under
way and nothing is in memory, a blob that is marked is the one that a load could not use.

That need not be the fault of the blob: a slot that cannot be read has its blob marked as well, unless the
failure is one of the file system.

* `Machine.HasRead` — a load has read the slot in a run.
* `View.Reason` — why the blob in the slot may be taken for a bad one; `View.Justified` is the invariant.
* `load_never_reinstalls` — both facts about the whole cache; `unread_blob_stays_marked` is a run in which
  the blob is fine.
-/

variable {σ M : Type} {c : Setup σ M}

/-! ### What a load has read -/

/-- The thread `a` has read this in a run. -/
def Machine.HasRead (c : Setup σ M) (m : Machine σ M) (ls : List (Machine.Label σ M)) (a : Actor)
    (found : Except CacheError (Option Bytes)) : Prop :=
  ∃ ls₁ o ls₂ v, ls = ls₁ ++ .of a o :: ls₂ ∧ run (Machine.step c) m ls₁ = some v ∧
    v.activity a = .load .fetch ∧ c.slot.read v.shared.slot = found

/-- What a load stands on has been read before. -/
def Load.StandsOn (c : Setup σ M) (read : Except CacheError (Option Bytes) → Prop) : Load M → Prop
  | .receive found => read found
  | .install h model | .publish h model =>
    ∃ b, read (.ok (some b)) ∧ Snapshot.decode c.codec c.modelVersion b = .ok (h, model)
  | _ => True

section Reading

variable {m m' : Machine σ M} {ls : List (Machine.Label σ M)} {l : Machine.Label σ M} {a : Actor}
  {found : Except CacheError (Option Bytes)}

theorem Machine.HasRead.concat (h : m.HasRead c ls a found) (l : Machine.Label σ M) :
    m.HasRead c (ls ++ [l]) a found := by
  obtain ⟨ls₁, o, ls₂, v, rfl, hrun, hfetch, hread⟩ := h
  exact ⟨ls₁, o, ls₂ ++ [l], v, by simp, hrun, hfetch, hread⟩

theorem Load.StandsOn.mono {read read' : Except CacheError (Option Bytes) → Prop} {p : Load M}
    (h : p.StandsOn c read) (hsub : ∀ found, read found → read' found) : p.StandsOn c read' := by
  cases p with
  | receive found => exact hsub _ h
  | install header model | publish header model =>
    obtain ⟨b, hb, hdecode⟩ := h
    exact ⟨b, hsub _ hb, hdecode⟩
  | _ => trivial

theorem Load.StandsOn.step {me : Actor} {o : Outside} {s s' : Shared σ M} {p p' : Load M}
    {read : Except CacheError (Option Bytes) → Prop} (h : p.StandsOn c read)
    (hfetch : p = .fetch → read (c.slot.read s.slot)) (hstep : p.step c me o s = some (p', s')) :
    p'.StandsOn c read := by
  cases p with
  | peek | enter | recheck =>
    simp only [Load.step] at hstep
    split at hstep <;> cases hstep <;> trivial
  | consult =>
    cases hstep
    split <;> trivial
  | fetch =>
    cases hstep
    exact hfetch rfl
  | receive found =>
    simp only [Load.step] at hstep
    split at hstep <;> rename_i hfound
    · cases hstep
      trivial
    · cases hstep
      trivial
    · have hread : found = .ok (some _) := eq_of_outcome hfound
      subst hread
      split at hstep <;> rename_i hdecode <;> cases hstep
      · exact ⟨_, h, hdecode⟩
      · trivial
  | install header model =>
    simp only [Load.step] at hstep
    split at hstep <;> cases hstep
    exact h
  | fail | complain | publish | leave =>
    cases hstep
    trivial
  | done result => cases hstep

/-- Whatever loads stand on has been read in a run, if there is nothing for them to stand on at its
beginning. -/
theorem standsOn_of_run (hstart : ∀ a p, m.activity a = .load p → p.StandsOn c fun _ => False)
    (hrun : run (Machine.step c) m ls = some m') {p : Load M} (hp : m'.activity a = .load p) :
    p.StandsOn c (m.HasRead c ls a) := by
  induction ls using List.reverseRecOn generalizing m' p with
  | nil =>
    cases hrun
    exact (hstart a p hp).mono fun _ hfalse => hfalse.elim
  | append_singleton ls l ih =>
    rw [run_append, Option.bind_eq_some_iff] at hrun
    obtain ⟨v, hv, hstep⟩ := hrun
    rw [run_singleton] at hstep
    have hkept {q : Load M} (hq : v.activity a = .load q) : q.StandsOn c (m.HasRead c (ls ++ [l]) a) :=
      (ih hv hq).mono fun _ h => h.concat l
    cases (turn_of_step hstep).course a with
    | same eq => exact hkept (by rw [← eq]; exact hp)
    | load o q q' label was now step =>
      rw [now, Activity.load.injEq] at hp
      subst hp
      refine (hkept was).step (fun hfetch => ?_) step
      -- the step that reads the slot
      rw [hfetch] at was
      exact ⟨ls, o, [], v, by rw [label], hv, was, rfl⟩
    | save o q q' label was now step => rw [now] at hp; cases hp
    | invalidate o q q' label was now step => rw [now] at hp; cases hp
    | begin i call label was now =>
      rw [now] at hp
      cases call <;> cases hp
      trivial
    | edge o label was aside =>
      have hedge := aside.isAtEdge
      rw [hp] at hedge
      cases p <;> trivial

/-- Who has just removed the blob is about to forget the snapshot in memory. -/
theorem Turn.exists_forget (turn : Turn c m m' l) (hremoved : m.deed? c l = some .removed) :
    ∃ me, m'.activity me = .invalidate .forget := by
  cases turn with
  | load me o p p' was now others step =>
    rw [Machine.deed?_of, was] at hremoved
    cases hremoved
  | save me o p p' was now others step =>
    rw [Machine.deed?_of, was] at hremoved
    cases p with
    | write model header blob =>
      simp only [Activity.deed?, Save.deed?] at hremoved
      split at hremoved <;> cases hremoved
    | _ => cases hremoved
  | invalidate me o p p' was now others step =>
    rw [Machine.deed?_of, was] at hremoved
    obtain ⟨-, rfl⟩ := Invalidation.eq_of_deed step hremoved
    exact ⟨me, now⟩
  | edge me o was others core aside =>
    rw [Machine.deed?_of, Activity.deed?_of_isAtEdge was] at hremoved
    cases hremoved
  | begin | host | stranger => cases hremoved

/-- **Removed blobs.** What a load puts into memory after a removal has been read after the removal. -/
theorem exists_read_of_publish (lanes : m.Lanes) (hstep : m.step c l = some m')
    (hremoved : m.deed? c l = some .removed) {u : Machine σ M} (hrun : run (Machine.step c) m' ls = some u)
    {h : Snapshot.Header} {model : M} (hpublish : u.activity a = .load (.publish h model)) :
    ∃ b, m'.HasRead c ls a (.ok (some b)) ∧
      Snapshot.decode c.codec c.modelVersion b = .ok (h, model) := by
  refine standsOn_of_run ?_ hrun hpublish
  intro b p hp
  obtain ⟨me, now⟩ := (turn_of_step hstep).exists_forget hremoved
  -- the removal has the load lane in hand, so that no load stands anywhere near the slot
  have hfree : p.holdsLoad = false := by
    by_contra hholds
    have hload : (m'.activity b).holdsLoad = true := by
      rw [hp]
      exact Bool.of_not_eq_false hholds
    have heq : b = me := (lanes.turn (turn_of_step hstep)).load.unique hload (by rw [now]; rfl)
    rw [heq, now] at hp
    cases hp
  cases p <;> trivial

end Reading

/-! ### Bad blobs -/

/-- Why the blob in the slot may be taken for a bad one: it has been read and does not decode, or the slot
could not be read, and not because of the file system. -/
def View.Reason (c : Setup σ M) (x : View M) : Prop :=
  (∃ blob e, x.slot = some blob ∧ .condemned blob e ∈ x.verdicts ∧
    Snapshot.decode c.codec c.modelVersion blob = .error e) ∨
  ∃ e, .unread x.deeds.getLast? e ∈ x.verdicts ∧ e.isIo = false

/-- There is a snapshot in memory, or a save is about to put one there. -/
def View.IsSuperseded (x : View M) : Prop :=
  x.current.isSome = true ∨ ∃ a, (x.activity a).isCommitting = true

/-- The mark of a bad blob has a reason, unless it does not matter any more or is about to be cleared. -/
structure View.Justified (c : Setup σ M) (x : View M) : Prop where
  read : ∀ a blob, x.activity a = .load (.receive (.ok (some blob))) →
    x.slot = some blob ∨ x.IsSuperseded
  marking : ∀ a, (x.activity a).isMarking = true → x.Reason c ∨ x.IsSuperseded
  marked : x.knownBad = true →
    x.Reason c ∨ x.IsSuperseded ∨ ∃ a, (x.activity a).isClearing = true

section Justified

variable {x y : View M} {me : Actor} {q : Activity M}

/-- A reason stays one as long as nobody changes the slot. -/
theorem View.Reason.mono (h : x.Reason c) (slot : y.slot = x.slot) (deeds : y.deeds = x.deeds)
    (verdicts : x.verdicts ⊆ y.verdicts) : y.Reason c := by
  rcases h with ⟨blob, e, hslot, hmem, hdecode⟩ | ⟨e, hmem, hio⟩
  · exact .inl ⟨blob, e, by rw [slot, hslot], verdicts hmem, hdecode⟩
  · exact .inr ⟨e, by rw [deeds]; exact verdicts hmem, hio⟩

/-- A step that leaves the slot and the snapshot in memory alone keeps the invariant, if the thread that
takes it keeps its part of it. -/
theorem View.Justified.keep (h : x.Justified c) (activity : y.activity = Function.update x.activity me q)
    (slot : y.slot = x.slot) (current : y.current = x.current) (deeds : y.deeds = x.deeds)
    (verdicts : x.verdicts ⊆ y.verdicts)
    (committing : (x.activity me).isCommitting = true → q.isCommitting = true)
    (clearing : y.knownBad = true → (x.activity me).isClearing = true → q.isClearing = true)
    (read : ∀ blob, q = .load (.receive (.ok (some blob))) → x.slot = some blob)
    (marking : q.isMarking = true → y.Reason c ∨ x.IsSuperseded)
    (marked : y.knownBad = true → x.knownBad = true ∨ y.Reason c ∨ x.IsSuperseded) : y.Justified c := by
  have hsuperseded (hx : x.IsSuperseded) : y.IsSuperseded :=
    hx.imp (fun hc => by rw [current]; exact hc)
      (exists_move (P := fun a => a.isCommitting = true) activity committing)
  have hreason (hx : x.Reason c) : y.Reason c := hx.mono slot deeds verdicts
  refine ⟨fun a blob ha => ?_, fun a ha => ?_, fun hbad => ?_⟩
  · by_cases heq : a = me
    · rw [activity, heq, Function.update_self] at ha
      exact .inl (by rw [slot]; exact read blob ha)
    · rw [activity, Function.update_of_ne heq] at ha
      rw [slot]
      exact (h.read a blob ha).imp_right hsuperseded
  · by_cases heq : a = me
    · rw [activity, heq, Function.update_self] at ha
      exact (marking ha).imp_right hsuperseded
    · rw [activity, Function.update_of_ne heq] at ha
      exact (h.marking a ha).imp hreason hsuperseded
  · rcases marked hbad with hx | hy | hx
    · refine (h.marked hx).imp hreason (Or.imp hsuperseded fun hclearing => ?_)
      exact exists_move (P := fun a => a.isClearing = true) activity (clearing hbad) hclearing
    · exact .inl hy
    · exact .inr (.inl (hsuperseded hx))

/-- A step of a load that leaves the snapshot in memory alone. -/
theorem View.Justified.load (h : x.Justified c) {p p' : Load M} (was : x.activity me = .load p)
    (activity : y.activity = Function.update x.activity me (.load p')) (slot : y.slot = x.slot)
    (current : y.current = x.current) (deeds : y.deeds = x.deeds) (verdicts : x.verdicts ⊆ y.verdicts)
    (read : ∀ blob, p' = .receive (.ok (some blob)) → x.slot = some blob)
    (marking : p'.isMarking = true → y.Reason c ∨ x.IsSuperseded)
    (marked : y.knownBad = true → x.knownBad = true ∨ y.Reason c ∨ x.IsSuperseded) : y.Justified c := by
  refine h.keep activity slot current deeds verdicts ?_ ?_ ?_ marking marked
  · intro hcommitting
    rw [was] at hcommitting
    cases hcommitting
  · intro _ hclearing
    rw [was] at hclearing
    cases hclearing
  · intro blob hp
    exact read blob (Activity.load.inj hp)

/-- Nothing is to be said while the snapshot in memory is a newer one, or about to be. -/
theorem View.IsSuperseded.justified (h : x.IsSuperseded) : x.Justified c :=
  ⟨fun _ _ _ => .inr h, fun _ _ => .inr h, fun _ => .inr (.inl h)⟩

/-- An invalidation that clears everything has both lanes to itself. -/
theorem View.justified_of_isClearing (apart : Apart y.activity)
    (hclearing : (y.activity me).isClearing = true) :
    y.Justified c := by
  have hload := (Activity.holds_of_isClearing hclearing).1
  have hnone {a : Actor} {p : Load M} (ha : y.activity a = .load p) : p.holdsLoad ≠ true := by
    intro hp
    have heq : a = me := apart.load a me (by rw [ha]; exact hp) hload
    rw [← heq, ha] at hclearing
    cases hclearing
  refine ⟨fun a blob ha => absurd rfl (hnone ha), fun a ha => ?_, fun _ => .inr (.inr ⟨me, hclearing⟩)⟩
  cases hp : y.activity a with
  | load p =>
    rw [hp] at ha
    cases p with
    | fail e => exact absurd rfl (hnone hp)
    | _ => cases ha
  | _ =>
    rw [hp] at ha
    cases ha

/-- **Every step keeps it** that the mark of a bad blob has a reason. -/
theorem View.Justified.step (h : x.Justified c) (apart : Apart y.activity) (hstep : View.Step c x y) :
    y.Justified c := by
  cases hstep with
  | same => exact h
  | quiet me q was pending asking =>
    refine h.keep rfl rfl rfl rfl (fun _ => id) ?_ ?_ ?_ ?_ .inl
    · intro hme
      rw [Activity.isPending_of_isCommitting hme] at was
      cases was
    · intro _ hme
      rw [Activity.isPending_of_isClearing hme] at was
      cases was
    · rintro blob rfl
      cases asking
    · intro hq
      rw [Activity.isPending_of_isMarking hq] at pending
      cases pending
  | ask me was empty =>
    exact h.load was rfl rfl rfl rfl (fun _ => id) (fun _ hp => by cases hp) (fun hp => by cases hp) .inl
  | turn me was good =>
    exact h.load was rfl rfl rfl rfl (fun _ => id) (fun _ hp => by cases hp) (fun hp => by cases hp) .inl
  | decode me blob header model was decode =>
    exact h.load was rfl rfl rfl rfl (fun _ => id) (fun _ hp => by cases hp) (fun hp => by cases hp) .inl
  | complain me e was =>
    exact h.load was rfl rfl rfl rfl (fun _ => id) (fun _ hp => by cases hp) (fun hp => by cases hp) .inl
  | install me header model was =>
    exact h.load was rfl rfl rfl rfl (fun _ => id) (fun _ hp => by cases hp) (fun hp => by cases hp) .inl
  | read me found was genuine =>
    refine h.load was rfl rfl rfl rfl (fun _ => id) ?_ (fun hp => by cases hp) .inl
    rintro blob hp
    cases hp
    exact (genuine _ rfl).symm
  | refuse me found e was =>
    refine h.load was rfl rfl rfl rfl (fun _ => List.mem_append_left _) (fun _ hp => by cases hp) ?_ .inl
    -- this is taken down at once
    intro hp
    refine .inl (.inr ⟨e, ?_, by simpa [Load.isMarking] using hp⟩)
    exact List.mem_append_right _ (List.mem_singleton.mpr rfl)
  | condemn me blob e was decode =>
    refine h.load was rfl rfl rfl rfl (fun _ => List.mem_append_left _) (fun _ hp => by cases hp) ?_ .inl
    intro _
    refine (h.read me blob was).imp_left fun hslot => .inl ⟨blob, e, hslot, ?_, decode⟩
    exact List.mem_append_right _ (List.mem_singleton.mpr rfl)
  | mark me e was =>
    refine h.load was rfl rfl rfl rfl (fun _ => id) (fun _ hp => by cases hp) (fun hp => by cases hp) ?_
    intro hbad
    rcases Bool.or_eq_true_iff.mp hbad with hbad | hio
    · exact .inl hbad
    · exact .inr (h.marking me (by rw [was]; exact hio))
  | publish me header model was => exact View.IsSuperseded.justified (.inl rfl)
  | settle me model r was => exact View.IsSuperseded.justified (.inl rfl)
  | write me model header blob r was genuine =>
    refine View.IsSuperseded.justified (.inr ⟨me, ?_⟩)
    rw [View.activity_move_self]
    rfl
  | commit me model r was =>
    refine View.IsSuperseded.justified (.inr ⟨me, ?_⟩)
    rw [View.activity_move_self]
    rfl
  | remove me was =>
    have hclearing : ((x.move me (.invalidate .forget)).activity me).isClearing = true := by
      rw [View.activity_move_self]
      rfl
    exact View.justified_of_isClearing apart hclearing
  | forget me was =>
    have hclearing : ((x.move me (.invalidate .absolve)).activity me).isClearing = true := by
      rw [View.activity_move_self]
      rfl
    exact View.justified_of_isClearing apart hclearing
  | absolve me was =>
    refine h.keep rfl rfl rfl rfl (fun _ => id) ?_ (fun hbad => by cases hbad) (fun _ hq => by cases hq)
      (fun hq => by cases hq) (fun hbad => by cases hbad)
    intro hme
    rw [was] at hme
    cases hme

end Justified

/-! ### Whole runs -/

/-- **Loads and removals.** What a load puts into memory after a removal has been read after the removal.
And when no save is under way and nothing is in memory, a blob that is marked as bad is one that has been
read and does not decode, or the slot could not be read, and not because of the file system. -/
theorem load_never_reinstalls {content : σ → Option Bytes} {valid : M → Prop}
    (hslot : c.slot.Lawful content) (hcodec : c.codec.Faithful valid) {slot : σ} {holder : Holder M}
    (hvalid : ∀ model, holder.current = some model → valid model) (reports : Reports) :
    (∀ ls m l m' ks u a h model, run (Machine.step c) (.start slot holder reports) ls = some m →
      m.step c l = some m' → m.deed? c l = some .removed → run (Machine.step c) m' ks = some u →
      u.activity a = .load (.publish h model) →
      ∃ b, m'.HasRead c ks a (.ok (some b)) ∧
        Snapshot.decode c.codec c.modelVersion b = .ok (h, model)) ∧
    ∀ ls w, (∀ l ∈ ls, l.Owned valid) → run (Inquiry.step c) (.start slot holder reports) ls = some w →
      w.machine.shared.writeLane = none → w.machine.shared.knownBad = true →
      w.machine.shared.current = none → (w.view content).Reason c := by
  refine ⟨fun ls m l m' ks u a h model hls hstep hremoved hks hpublish => ?_, ?_⟩
  · exact exists_read_of_publish (Machine.lanes_of_reachable ⟨ls, hls⟩) hstep hremoved hks hpublish
  · intro ls w hls hrun hfree hbad hnone
    have hstart : ((Inquiry.start slot holder reports).view content).Justified c := by
      refine ⟨fun a blob ha => ?_, fun a ha => ?_, fun hbad => by cases hbad⟩ <;> cases a <;> cases ha
    obtain ⟨lanes, hjustified⟩ := Inquiry.view_induction hslot hcodec hvalid hls hrun
      (P := View.Justified c) hstart fun x y hx _ hy hstep => hx.step hy hstep
    -- nobody has the write lane in hand, so that nobody is about to change anything
    have hidle (a : Actor) : (w.machine.activity a).holdsWrite ≠ true := by
      intro ha
      have hheld := (lanes.write a).mpr ha
      rw [hfree] at hheld
      cases hheld
    rcases hjustified.marked hbad with hreason | (hcurrent | ⟨a, ha⟩) | ⟨a, ha⟩
    · exact hreason
    · rw [show (w.view content).current = none from hnone] at hcurrent
      cases hcurrent
    · exact absurd (Activity.holdsWrite_of_isChanging (Activity.isChanging_of_isCommitting ha)) (hidle a)
    · exact absurd (Activity.holds_of_isClearing ha).2 (hidle a)

/-- A load that finds a blob that means nothing. -/
def condemningRun : List (Machine.Label MemorySlot Value) :=
  .call 0 .load :: List.replicate 10 (.caller 0 {})

/-- An invalidation that is about to remove the blob. -/
def removingRun : List (Machine.Label MemorySlot Value) :=
  .call 0 .invalidate :: List.replicate 3 (.caller 0 {})

/-- The rest of that invalidation; then somebody puts the blob back, and a load reads it. -/
def returningRun (old : Bytes) : List (Machine.Label MemorySlot Value) :=
  List.replicate 4 (.caller 0 {}) ++ .stranger { blob := some old } :: .call 1 .load ::
    List.replicate 5 (.caller 1 {})

theorem decode_oldBlob {old : Bytes}
    (h : Snapshot.encode textSetup.codec oldHeader (.string "a") 3 = .ok old) :
    Snapshot.decode textSetup.codec 1 old = .ok (oldHeader, .string "a") := by
  have hadmits : (Layout.mk .string []).Admits (.string "a") := .string (by decide)
  exact Snapshot.decode_encode (Layout.faithful_codec _) hadmits rfl h

/-- A blob that has been removed and put back is read again before it is put into memory; and an empty blob
is marked as bad by the load that has read it. -/
theorem load_never_reinstalls_text :
    (∃ old m m' u b, run (Machine.step textSetup) (oldStart old) removingRun = some m ∧
      m.step textSetup (.caller 0 {}) = some m' ∧
      run (Machine.step textSetup) m' (returningRun old ++ [.caller 1 {}, .caller 1 {}]) = some u ∧
      m'.HasRead textSetup (returningRun old ++ [.caller 1 {}, .caller 1 {}]) (.caller 1) (.ok (some b)) ∧
      Snapshot.decode textSetup.codec 1 b = .ok (oldHeader, .string "a")) ∧
    ∃ w, run (Inquiry.step textSetup) (.start { blob := some [] } { current := some (.string "a") } {})
        condemningRun = some w ∧
      w.machine.shared.knownBad = true ∧ w.machine.shared.current = none ∧
      (w.view MemorySlot.blob).Reason textSetup := by
  have hvalid (text : String) (hsize : text.utf8ByteSize < Nat.pow 2 64) :
      ∀ model, some (Value.string text) = some model → (Layout.mk .string []).Admits model := by
    intro model hmodel
    cases hmodel
    exact .string hsize
  refine ⟨?_, ?_⟩
  · obtain ⟨old, hold⟩ := exists_oldBlob
    have hdecode := decode_oldBlob hold
    obtain ⟨m, m', t, hm, hm', hremoved, ht, hcallers, hlane⟩ : ∃ m m' t,
        run (Machine.step textSetup) (oldStart old) removingRun = some m ∧
          m.step textSetup (.caller 0 {}) = some m' ∧ m.deed? textSetup (.caller 0 {}) = some .removed ∧
            run (Machine.step textSetup) m' (returningRun old) = some t ∧
              t.callers 1 = .loading (.receive (.ok (some old))) ∧ t.shared.writeLane = none :=
      ⟨_, _, _, rfl, rfl, rfl, rfl, rfl, rfl⟩
    -- the load decodes the blob and takes the write lane
    obtain ⟨u, hu, hpublish⟩ : ∃ u, run (Machine.step textSetup) t [.caller 1 {}, .caller 1 {}] = some u ∧
        u.activity (.caller 1) = .load (.publish oldHeader (.string "a")) := by
      have hdecode' : Snapshot.decode textSetup.codec textSetup.modelVersion old = _ := hdecode
      have hload : run (Load.next textSetup (.caller 1)) (.receive (.ok (some old)), t.shared) [{}, {}] =
          some (.publish oldHeader (.string "a"),
            { t.shared with stats := t.shared.stats.loaded, writeLane := some (.caller 1) }) := by
        simp only [run_cons, run_nil, Load.next, Load.step, Outside.outcome, hdecode', hlane,
          Option.isNone_none, if_true, Option.bind_some]
      have hrun := run_loading t 1 hload
      rw [Machine.move_eq_self hcallers] at hrun
      exact ⟨_, hrun, Machine.activity_move_self ..⟩
    have hrun : run (Machine.step textSetup) m'
        (returningRun old ++ [.caller 1 {}, .caller 1 {}]) = some u := by
      rw [run_append, ht, Option.bind_some, hu]
    obtain ⟨b, hread, hb⟩ := (load_never_reinstalls (MemorySlot.lawful "memory") (Layout.faithful_codec _)
      (hvalid "b" (by decide)) {}).1 removingRun m _ m' _ u (.caller 1) oldHeader
        (.string "a") hm hm' hremoved
        hrun hpublish
    exact ⟨old, m, m', u, b, hm, hm', hrun, hread, hb⟩
  · obtain ⟨w, hw, hfree, hbad, hnone⟩ : ∃ w, run (Inquiry.step textSetup)
        (.start { blob := some [] } { current := some (.string "a") } {}) condemningRun = some w ∧
          w.machine.shared.writeLane = none ∧ w.machine.shared.knownBad = true ∧
            w.machine.shared.current = none := ⟨_, rfl, rfl, rfl, rfl⟩
    refine ⟨w, hw, hbad, hnone, ?_⟩
    refine (load_never_reinstalls (MemorySlot.lawful "memory") (Layout.faithful_codec _)
      (hvalid "a" (by decide)) {}).2 condemningRun w ?_ hw hfree hbad hnone
    intro l hl
    rcases List.mem_cons.mp hl with rfl | hl
    · trivial
    · rw [List.eq_of_mem_replicate hl]
      trivial

/-- A load whose read fails, though not because of the file system, and another load after it. -/
def misleadingRun : List (Machine.Label MemorySlot Value) :=
  .call 0 .load :: List.replicate 10 (.caller 0 { fault := some (.internal "busy") })

/-- **A good blob that is marked as bad.** A read fails, and the blob is marked although nothing is wrong
with it: no load has ever found a blob that does not decode.  The slot is fine from now on, but the next
load does not look at it. -/
theorem unread_blob_stays_marked :
    ∃ old w v, run (Inquiry.step textSetup) ⟨oldStart old, [], [], []⟩ misleadingRun = some w ∧
      (∀ l ∈ misleadingRun, l.Owned (Layout.mk .string []).Admits) ∧
      w.machine.shared.writeLane = none ∧ w.machine.shared.loadLane = none ∧
      w.machine.shared.knownBad = true ∧ w.machine.shared.current = none ∧
      w.machine.shared.slot.blob = some old ∧
      Snapshot.decode textSetup.codec 1 old = .ok (oldHeader, .string "a") ∧
      (∀ blob e, .condemned blob e ∉ w.verdicts) ∧
      run (Machine.step textSetup) w.machine (.call 1 .load :: List.replicate 6 (.caller 1 {})) = some v ∧
      v.callers 1 = .done (.loaded none) ∧ v.shared.slot.blob = some old := by
  obtain ⟨old, hold⟩ := exists_oldBlob
  have hdecode := decode_oldBlob hold
  obtain ⟨w, v, hw, hwrite, hload, hbad, hnone, hslot, hverdicts, hv, hanswer, hkept⟩ : ∃ w v,
      run (Inquiry.step textSetup) ⟨oldStart old, [], [], []⟩ misleadingRun = some w ∧
        w.machine.shared.writeLane = none ∧ w.machine.shared.loadLane = none ∧
          w.machine.shared.knownBad = true ∧ w.machine.shared.current = none ∧
            w.machine.shared.slot.blob = some old ∧ w.verdicts = [.unread none (.internal "busy")] ∧
              run (Machine.step textSetup) w.machine
                  (.call 1 .load :: List.replicate 6 (.caller 1 {})) = some v ∧
                v.callers 1 = .done (.loaded none) ∧ v.shared.slot.blob = some old :=
    ⟨_, _, rfl, rfl, rfl, rfl, rfl, rfl, rfl, rfl, rfl, rfl⟩
  refine ⟨old, w, v, hw, ?_, hwrite, hload, hbad, hnone, hslot, hdecode, ?_, hv, hanswer, hkept⟩
  · intro l hl
    rcases List.mem_cons.mp hl with rfl | hl
    · trivial
    · rw [List.eq_of_mem_replicate hl]
      trivial
  · intro blob e hmem
    rw [hverdicts] at hmem
    cases List.mem_singleton.mp hmem

end SnapStore.Cache
