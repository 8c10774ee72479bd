import SnapStore.Proofs.Cache.Verdicts
import SnapStore.Proofs.Cache.Alone

namespace SnapStore.Cache

/-!
# How often a blob is decoded, and how often it is blamed

A cache that has its slot for itself decodes what it finds there once.  From then on the snapshot is in
memory, until an invalidation removes the blob and forgets the snapshot.  In the same way a blob that does
not decode is reported once: it stays marked as bad until it is removed or replaced by a blob that does
decode.

Both are counted against the removals.  Loads read the slot one at a time, so that what has been counted
when a load has found nothing in memory is still what has been counted when it decodes the blob.

* `View.Thrifty` — the count of decoded blobs; `View.Patient` — the count of verdicts that blame the blob;
  `View.Honest` — what is reported are these verdicts.
* `Inquiry.complaints_le` — the bound for any slot, `decoded_once_and_blamed_once` — the result.
-/

variable {σ M : Type} {c : Setup σ M} {x y : View M}

/-- The slot has not been filled since it was opened or emptied. -/
def View.IsUntouched (x : View M) : Prop := ∀ model h blob, x.deeds.getLast? ≠ some (.saved model h blob)

/-- No more blobs have been decoded than removed, up to one, which is then in memory or about to be. -/
structure View.Thrifty (x : View M) : Prop where
  bound : x.loads ≤ removals x.deeds + 1
  empty : x.current = none → x.loads ≤ removals x.deeds ∨ ∃ a, (x.activity a).isInstalling = true
  asking : ∀ a, (x.activity a).isAsking = true → x.loads ≤ removals x.deeds
  forgetting : ∀ a, x.activity a = .invalidate .forget → x.loads ≤ removals x.deeds

/-- No more blobs have been blamed than removed.  What a slot says that slanders a blob does not count. -/
def View.IsClear (x : View M) : Prop := blames x.verdicts ≤ removals x.deeds + slanders x.verdicts

/-- No more blobs have been blamed than removed, up to one, which is then marked as bad or about to be, or
has been replaced. -/
structure View.Patient (c : Setup σ M) (x : View M) : Prop where
  bound : blames x.verdicts ≤ removals x.deeds + 1 + slanders x.verdicts
  /-- A blob that has been saved decodes. -/
  saved : ∀ model h blob, x.deeds.getLast? = some (.saved model h blob) →
    x.slot = some blob ∧ Snapshot.decode c.codec c.modelVersion blob = .ok (h, model)
  committing : ∀ a, (x.activity a).isCommitting = true → ¬ x.IsUntouched
  unmarked : x.IsUntouched → x.knownBad = false → x.IsClear ∨ ∃ a, (x.activity a).isMarking = true
  fetching : ∀ a, x.activity a = .load .fetch → x.IsUntouched → x.IsClear
  /-- A load that holds a bad blob has read it before it was replaced, if it was. -/
  receiving : ∀ a found, x.activity a = .load (.receive found) →
    (x.IsUntouched ∨ ∃ b e, found = .ok (some b) ∧
      Snapshot.decode c.codec c.modelVersion b = .error e) → x.IsClear
  clearing : ∀ a, (x.activity a).isClearing = true → x.IsClear

/-- Whether a load has come to a verdict with an error and has not reported it yet. -/
def Activity.Owes (a : Activity M) (e : CacheError) : Prop := a = .load (.fail e) ∨ a = .load (.complain e)

/-- Only what a load has found is reported, and only once. -/
structure View.Honest (x : View M) : Prop where
  bound : x.complaints ≤ blames x.verdicts
  owing : ∀ a e, (x.activity a).Owes e → x.complaints + e.blamesBlob.toNat ≤ blames x.verdicts

section Thrifty

variable {me : Actor} {q : Activity M}

/-- A step after which no more has been decoded and nothing has been forgotten keeps the invariant. -/
theorem View.Thrifty.keep (h : x.Thrifty) (activity : y.activity = Function.update x.activity me q)
    (loads : y.loads = x.loads) (removals : Cache.removals y.deeds = Cache.removals x.deeds)
    (current : y.current = none → x.current = none)
    (installing : y.current = none → (x.activity me).isInstalling = true → q.isInstalling = true)
    (asking : q.isAsking = true → x.loads ≤ Cache.removals x.deeds)
    (forgetting : q ≠ .invalidate .forget) : y.Thrifty := by
  have hself : y.activity me = q := by rw [activity, Function.update_self]
  have hother {a : Actor} (ha : a ≠ me) : y.activity a = x.activity a := by
    rw [activity, Function.update_of_ne ha]
  refine ⟨by rw [loads, removals]; exact h.bound, fun hy => ?_, fun a ha => ?_, fun a ha => ?_⟩
  · rw [loads, removals]
    exact (h.empty (current hy)).imp_right
      (View.exists_move (P := fun a => a.isInstalling = true) activity (installing hy))
  · rw [loads, removals]
    by_cases heq : a = me
    · rw [heq, hself] at ha
      exact asking ha
    · rw [hother heq] at ha
      exact h.asking a ha
  · rw [loads, removals]
    by_cases heq : a = me
    · rw [heq, hself] at ha
      exact absurd ha forgetting
    · rw [hother heq] at ha
      exact h.forgetting a ha

/-- The same for a thread that is not about to put a snapshot into memory. -/
theorem View.Thrifty.pass (h : x.Thrifty) (was : (x.activity me).isInstalling = false)
    (activity : y.activity = Function.update x.activity me q) (loads : y.loads = x.loads)
    (removals : Cache.removals y.deeds = Cache.removals x.deeds)
    (current : y.current = none → x.current = none)
    (asking : q.isAsking = true → x.loads ≤ Cache.removals x.deeds)
    (forgetting : q ≠ .invalidate .forget) : y.Thrifty := by
  refine h.keep activity loads removals current (fun _ hme => ?_) asking forgetting
  rw [was] at hme
  cases hme

/-- What has been decoded and removed is all that counts as long as no blob is decoded. -/
theorem View.thrifty_of_le (h : x.loads ≤ removals x.deeds) : x.Thrifty :=
  ⟨Nat.le_succ_of_le h, fun _ => .inl h, fun _ _ => h, fun _ _ => h⟩

/-- A load that stands near the slot has it to itself: nobody else stands at a place that needs the lane. -/
theorem Apart.nobody_of_load (apart : Apart x.activity) {p : Load M} (was : x.activity me = .load p)
    (hp : p.holdsLoad = true) {P : Activity M → Prop} (hP : ∀ o, P o → o.holdsLoad = true)
    (hno : ¬ P (.load p)) (a : Actor) : ¬ P (x.activity a) := by
  intro ha
  have heq : a = me := apart.load a me (hP _ ha) (by rw [was]; exact hp)
  rw [heq, was] at ha
  exact hno ha

/-- The same when it has gone on. -/
theorem Apart.nobody_of_move (apart : Apart x.activity) {p : Load M} (was : x.activity me = .load p)
    (hp : p.holdsLoad = true) {P : Activity M → Prop} (hP : ∀ o, P o → o.holdsLoad = true) (hno : ¬ P q)
    (a : Actor) : ¬ P ((x.move me q).activity a) := by
  intro ha
  by_cases heq : a = me
  · rw [heq, View.activity_move_self] at ha
    exact hno ha
  · rw [View.activity_move_of_ne _ _ heq] at ha
    exact heq (apart.load a me (hP _ ha) (by rw [was]; exact hp))

theorem Activity.holdsLoad_of_isInstalling {a : Activity M} (h : a.isInstalling = true) :
    a.holdsLoad = true := by
  cases a with
  | load p => cases p <;> first | rfl | cases h
  | _ => cases h

theorem Activity.holdsLoad_of_isMarking {a : Activity M} (h : a.isMarking = true) : a.holdsLoad = true := by
  cases a with
  | load p => cases p <;> first | rfl | cases h
  | _ => cases h

theorem Activity.holdsLoad_of_isAsking {a : Activity M} (h : a.isAsking = true) : a.holdsLoad = true := by
  cases a with
  | load p => cases p <;> first | rfl | cases h
  | _ => cases h

/-- **Every step keeps it** that no more blobs have been decoded than removed, up to one. -/
theorem View.Thrifty.step (h : x.Thrifty) (apart : Apart x.activity) (hstep : View.Step c x y) :
    y.Thrifty := by
  cases hstep with
  | same => exact h
  | quiet me q was pending asking =>
    refine h.pass ?_ rfl rfl rfl id (fun hq => ?_) ?_
    · by_contra hme
      rw [Activity.isPending_of_isInstalling (Bool.of_not_eq_false hme)] at was
      cases was
    · rw [hq] at asking
      cases asking
    · rintro rfl
      cases pending
  | ask me was empty =>
    refine h.pass (by rw [was]; rfl) rfl rfl rfl id (fun _ => ?_) (by simp)
    -- there is nothing in memory, and nobody else is about to put something there
    exact (h.empty empty).resolve_right fun ⟨a, ha⟩ => apart.nobody_of_load was rfl
      (P := fun o => o.isInstalling = true) (fun _ => Activity.holdsLoad_of_isInstalling)
      Bool.false_ne_true a ha
  | turn me was good =>
    exact h.pass (by rw [was]; rfl) rfl rfl rfl id (fun _ => h.asking me (by rw [was]; rfl)) (by simp)
  | read me found was genuine =>
    exact h.pass (by rw [was]; rfl) rfl rfl rfl id (fun _ => h.asking me (by rw [was]; rfl)) (by simp)
  | refuse me found e was =>
    exact h.pass (by rw [was]; rfl) rfl rfl rfl id (fun hq => by cases hq) (by simp)
  | condemn me blob e was decode =>
    exact h.pass (by rw [was]; rfl) rfl rfl rfl id (fun hq => by cases hq) (by simp)
  | decode me blob header model was decode =>
    -- whoever asks has the load lane, and so does whoever forgets
    have hle := h.asking me (by rw [was]; rfl)
    refine ⟨Nat.succ_le_succ hle, fun _ => .inr ⟨me, ?_⟩, fun a ha => absurd ha ?_, fun a ha => absurd ha ?_⟩
    · rw [View.activity_move_self]
      rfl
    · exact apart.nobody_of_move was rfl (P := fun o => o.isAsking = true)
        (fun _ => Activity.holdsLoad_of_isAsking) (fun ho => by cases ho) a
    · exact apart.nobody_of_move was rfl (P := fun o => o = .invalidate .forget) (by rintro _ rfl; rfl)
        (by simp) a
  | mark me e was => exact h.pass (by rw [was]; rfl) rfl rfl rfl id (fun hq => by cases hq) (by simp)
  | complain me e was => exact h.pass (by rw [was]; rfl) rfl rfl rfl id (fun hq => by cases hq) (by simp)
  | install me header model was =>
    exact h.keep rfl rfl rfl id (fun _ _ => rfl) (fun hq => by cases hq) (by simp)
  | publish me header model was =>
    exact h.keep rfl rfl rfl (fun hy => by cases hy) (fun hy => by cases hy) (fun hq => by cases hq)
      (by simp)
  | write me model header blob r was genuine =>
    have hsame : removals (x.deeds ++ [.saved model header blob]) = removals x.deeds := removals_concat ..
    exact h.pass (by rw [was]; rfl) rfl rfl hsame id (fun hq => by cases hq) (by simp)
  | commit me model r was => exact h.pass (by rw [was]; rfl) rfl rfl rfl id (fun hq => by cases hq) (by simp)
  | settle me model r was =>
    exact h.keep rfl rfl rfl (fun hy => by cases hy) (fun hy => by cases hy) (fun hq => by cases hq)
      (by simp)
  | remove me was =>
    have hmore : removals (x.deeds ++ [.removed]) = removals x.deeds + 1 := removals_concat ..
    have hbound := h.bound
    exact View.thrifty_of_le (by rw [hmore]; exact hbound)
  | forget me was =>
    exact View.thrifty_of_le (x := { x.move me _ with current := none }) (h.forgetting me was)
  | absolve me was => exact h.pass (by rw [was]; rfl) rfl rfl rfl id (fun hq => by cases hq) (by simp)

end Thrifty

section Patient

variable {me : Actor} {q : Activity M}

theorem View.isUntouched_or (x : View M) :
    x.IsUntouched ∨ ∃ model h blob, x.deeds.getLast? = some (.saved model h blob) := by
  by_cases hx : x.IsUntouched
  · exact .inl hx
  · right
    unfold View.IsUntouched at hx
    push Not at hx
    exact hx

/-- A step without a verdict and without a deed keeps the invariant, if the thread that takes it keeps its
part of it. -/
theorem View.Patient.keep (h : x.Patient c) (activity : y.activity = Function.update x.activity me q)
    (slot : y.slot = x.slot) (deeds : y.deeds = x.deeds) (verdicts : y.verdicts = x.verdicts)
    (committing : q.isCommitting = true → (x.activity me).isCommitting = true)
    (unmarked : x.IsUntouched → y.knownBad = false →
      x.IsClear ∨ x.knownBad = false ∧ ((x.activity me).isMarking = true → q.isMarking = true))
    (fetching : q = .load .fetch → x.IsUntouched → x.IsClear)
    (receiving : ∀ found, q = .load (.receive found) →
      (x.IsUntouched ∨ ∃ b e, found = .ok (some b) ∧
        Snapshot.decode c.codec c.modelVersion b = .error e) → x.IsClear)
    (clearing : q.isClearing = true → x.IsClear) : y.Patient c := by
  have huntouched : y.IsUntouched ↔ x.IsUntouched := by rw [IsUntouched, IsUntouched, deeds]
  have hclear : y.IsClear ↔ x.IsClear := by rw [IsClear, IsClear, deeds, verdicts]
  have hself : y.activity me = q := by rw [activity, Function.update_self]
  have hother {a : Actor} (ha : a ≠ me) : y.activity a = x.activity a := by
    rw [activity, Function.update_of_ne ha]
  refine ⟨by rw [deeds, verdicts]; exact h.bound, by rw [deeds, slot]; exact h.saved, fun a ha => ?_,
    fun hy hgood => ?_, fun a ha => ?_, fun a found ha => ?_, fun a ha => ?_⟩
  · rw [huntouched]
    by_cases heq : a = me
    · rw [heq, hself] at ha
      exact h.committing me (committing ha)
    · rw [hother heq] at ha
      exact h.committing a ha
  · rw [huntouched] at hy
    rw [hclear]
    rcases unmarked hy hgood with hx | ⟨hx, hmarking⟩
    · exact .inl hx
    · exact (h.unmarked hy hx).imp_right
        (View.exists_move (P := fun a => a.isMarking = true) activity hmarking)
  · rw [huntouched, hclear]
    by_cases heq : a = me
    · rw [heq, hself] at ha
      exact fetching ha
    · rw [hother heq] at ha
      exact h.fetching a ha
  · rw [huntouched, hclear]
    by_cases heq : a = me
    · rw [heq, hself] at ha
      exact receiving found ha
    · rw [hother heq] at ha
      exact h.receiving a found ha
  · rw [hclear]
    by_cases heq : a = me
    · rw [heq, hself] at ha
      exact clearing ha
    · rw [hother heq] at ha
      exact h.clearing a ha

/-- The same for a load that neither marks the blob nor goes on to read the slot. -/
theorem View.Patient.pass (h : x.Patient c) {p p' : Load M} (was : x.activity me = .load p)
    (hp : p.isMarking = false) (activity : y.activity = Function.update x.activity me (.load p'))
    (slot : y.slot = x.slot) (deeds : y.deeds = x.deeds) (verdicts : y.verdicts = x.verdicts)
    (unmarked : y.knownBad = false → x.knownBad = false) (fetching : p' ≠ .fetch)
    (receiving : ∀ found, p' ≠ .receive found) : y.Patient c := by
  refine h.keep activity slot deeds verdicts (fun hq => by cases hq) (fun _ hgood => .inr
    ⟨unmarked hgood, fun hme => ?_⟩) (fun hq => absurd (Activity.load.inj hq) fetching)
    (fun found hq => absurd (Activity.load.inj hq) (receiving found)) (fun hq => by cases hq)
  rw [was, Activity.isMarking, hp] at hme
  cases hme

/-- A load comes to a verdict, with the load lane in hand. -/
theorem View.Patient.judge (h : x.Patient c) (apart : Apart x.activity)
    {found : Except CacheError (Option Bytes)}
    {e : CacheError} {verdict : Verdict M} (was : x.activity me = .load (.receive found))
    (bound : blames x.verdicts + verdict.error.blamesBlob.toNat ≤
      removals x.deeds + 1 + (slanders x.verdicts + verdict.isSlander.toNat))
    (excuse : e.isIo = true → verdict.error.blamesBlob = false) :
    View.Patient c { x.move me (.load (.fail e)) with verdicts := x.verdicts ++ [verdict] } := by
  have hbound : blames (x.verdicts ++ [verdict]) ≤
      removals x.deeds + 1 + slanders (x.verdicts ++ [verdict]) := by
    rw [blames_concat, slanders_concat]
    exact bound
  refine ⟨hbound, h.saved, fun a ha => ?_, fun hy hgood => ?_, fun a ha => absurd ha ?_,
    fun a found ha => absurd ha ?_, fun a ha => absurd ha ?_⟩
  · by_cases heq : a = me
    · rw [heq, View.activity_move_self] at ha
      cases ha
    · rw [View.activity_move_of_ne _ _ heq] at ha
      exact h.committing a ha
  · cases hio : e.isIo with
    | false =>
      refine .inr ⟨me, ?_⟩
      rw [View.activity_move_self]
      simp [Activity.isMarking, Load.isMarking, hio]
    | true =>
      -- the blob is not to blame, and nobody is about to mark it
      have hblame := excuse hio
      rcases h.unmarked hy hgood with hclear | ⟨a, ha⟩
      · left
        have hmore : slanders x.verdicts ≤ slanders (x.verdicts ++ [verdict]) := by
          rw [slanders_concat]
          exact Nat.le_add_right _ _
        have hsame : blames (x.verdicts ++ [verdict]) = blames x.verdicts := by
          rw [blames_concat, hblame]
          rfl
        simp only [IsClear, View.move] at hclear ⊢
        omega
      · exact absurd ha (apart.nobody_of_load was rfl (P := fun o => o.isMarking = true)
          (fun _ => Activity.holdsLoad_of_isMarking) Bool.false_ne_true a)
  -- nobody else is near the slot
  · exact apart.nobody_of_move was rfl (P := fun o => o = .load .fetch) (by rintro _ rfl; rfl) (by simp) a
  · exact apart.nobody_of_move was rfl (P := fun o => o = .load (.receive found)) (by rintro _ rfl; rfl)
      (by simp) a
  · exact apart.nobody_of_move was rfl (P := fun o => o.isClearing = true)
      (fun _ ho => (Activity.holds_of_isClearing ho).1) (fun ho => by cases ho) a

/-- A save fills the slot, with the write lane in hand. -/
theorem View.Patient.write (h : x.Patient c) (apart : Apart x.activity) {model : M}
    {header : Snapshot.Header}
    {blob : Bytes} {r : SaveReport} (was : x.activity me = .save (.write model header blob))
    (genuine : Snapshot.decode c.codec c.modelVersion blob = .ok (header, model)) :
    View.Patient c { x.move me (.save (.commit model r)) with
      slot := some blob, deeds := x.deeds ++ [.saved model header blob] } := by
  have hlast : (x.deeds ++ [Deed.saved model header blob]).getLast? = some (.saved model header blob) :=
    List.getLast?_concat ..
  have hsame : removals (x.deeds ++ [Deed.saved model header blob]) = removals x.deeds :=
    removals_concat ..
  refine ⟨?_, fun model' header' blob' hsaved => ?_, fun a ha huntouched => ?_, fun huntouched _ => ?_,
    fun a ha huntouched => ?_, fun a found ha hbad => ?_, fun a ha => ?_⟩
  · have hbound := h.bound
    rw [← hsame] at hbound
    exact hbound
  · rw [hlast, Option.some.injEq, Deed.saved.injEq] at hsaved
    obtain ⟨rfl, rfl, rfl⟩ := hsaved
    exact ⟨rfl, genuine⟩
  · exact huntouched _ _ _ hlast
  · exact absurd hlast (huntouched _ _ _)
  · exact absurd hlast (huntouched _ _ _)
  · -- a load that holds a bad blob has read it before
    have hne : a ≠ me := by
      rintro rfl
      rw [View.activity_move_self] at ha
      cases ha
    rw [View.activity_move_of_ne _ _ hne] at ha
    have hclear : x.IsClear := h.receiving a found ha (hbad.imp_left fun hx => absurd hlast (hx _ _ _))
    rw [IsClear, ← hsame] at hclear
    exact hclear
  · have heq : a = me := by
      by_contra hne
      rw [View.activity_move_of_ne _ _ hne] at ha
      exact hne (apart.write a me (Activity.holds_of_isClearing ha).2 (by rw [was]; rfl))
    rw [heq, View.activity_move_self] at ha
    cases ha

/-- A blob is removed, with both lanes in hand. -/
theorem View.Patient.remove (h : x.Patient c) (apart : Apart x.activity)
    (was : x.activity me = .invalidate .remove) :
    View.Patient c { x.move me (.invalidate .forget) with
      slot := none, deeds := x.deeds ++ [.removed] } := by
  have hlast : (x.deeds ++ [Deed.removed]).getLast? = some .removed := List.getLast?_concat ..
  have hmore : removals (x.deeds ++ [Deed.removed]) = removals x.deeds + 1 := removals_concat ..
  have hclear : blames x.verdicts ≤ removals (x.deeds ++ [Deed.removed]) + slanders x.verdicts := by
    rw [hmore]
    exact h.bound
  refine ⟨?_, fun model header blob hsaved => ?_, fun a ha => ?_, fun _ _ => .inl hclear,
    fun _ _ _ => hclear, fun _ _ _ _ => hclear, fun _ _ => hclear⟩
  · simp only [View.move]
    omega
  · rw [hlast] at hsaved
    cases hsaved
  · have heq : a = me := by
      by_contra hne
      rw [View.activity_move_of_ne _ _ hne] at ha
      have hwrite := Activity.holdsWrite_of_isChanging (Activity.isChanging_of_isCommitting ha)
      exact hne (apart.write a me hwrite (by rw [was]; rfl))
    rw [heq, View.activity_move_self] at ha
    cases ha

/-- **Every step keeps it** that no more blobs have been blamed than removed, up to one. -/
theorem View.Patient.step (h : x.Patient c) (apart : Apart x.activity) (hstep : View.Step c x y) :
    y.Patient c := by
  cases hstep with
  | same => exact h
  | quiet me q was pending asking =>
    refine h.keep rfl rfl rfl rfl (fun hq => ?_) (fun _ hgood => .inr ⟨hgood, fun hme => ?_⟩) (fun hq => ?_)
      (fun found hq => ?_) (fun hq => ?_)
    · rw [Activity.isPending_of_isCommitting hq] at pending
      cases pending
    · rw [Activity.isPending_of_isMarking hme] at was
      cases was
    · rw [hq] at asking
      cases asking
    · rw [hq] at asking
      cases asking
    · rw [Activity.isPending_of_isClearing hq] at pending
      cases pending
  | ask me was empty => exact h.pass was rfl rfl rfl rfl rfl id (by simp) (by simp)
  | decode me blob header model was decode => exact h.pass was rfl rfl rfl rfl rfl id (by simp) (by simp)
  | complain me e was => exact h.pass was rfl rfl rfl rfl rfl id (by simp) (by simp)
  | install me header model was => exact h.pass was rfl rfl rfl rfl rfl id (by simp) (by simp)
  | publish me header model was => exact h.pass was rfl rfl rfl rfl rfl id (by simp) (by simp)
  | turn me was good =>
    refine h.keep rfl rfl rfl rfl (fun hq => by cases hq) (fun _ hgood => .inr ⟨hgood, fun hme => ?_⟩)
      (fun _ huntouched => ?_) (fun found hq => by cases hq) (fun hq => by cases hq)
    · rw [was] at hme
      cases hme
    -- the blob is not marked, and nobody else is about to mark it
    · exact (h.unmarked huntouched good).resolve_right fun ⟨a, ha⟩ => apart.nobody_of_load was rfl
        (P := fun o => o.isMarking = true) (fun _ => Activity.holdsLoad_of_isMarking) Bool.false_ne_true a ha
  | read me found was genuine =>
    refine h.keep rfl rfl rfl rfl (fun hq => by cases hq) (fun _ hgood => .inr ⟨hgood, fun hme => ?_⟩)
      (fun hq => by cases hq) (fun found' hq hbad => ?_) (fun hq => by cases hq)
    · rw [was] at hme
      cases hme
    · cases hq
      apply h.fetching me was
      rcases hbad with huntouched | ⟨b, e, hb, hdecode⟩
      · exact huntouched
      · -- a blob that does not decode has not been saved by the cache
        rcases x.isUntouched_or with huntouched | ⟨model, header, blob, hlast⟩
        · exact huntouched
        · obtain ⟨hslot, hgood⟩ := h.saved model header blob hlast
          have hsame : some b = x.slot := genuine (some b) hb
          rw [hslot, Option.some.injEq] at hsame
          rw [hsame, hgood] at hdecode
          cases hdecode
  | refuse me found e was =>
    refine h.judge apart was ?_ (fun hio => ?_)
    · have hblame : e.blamesBlob.toNat ≤ 1 := Bool.toNat_le _
      rcases x.isUntouched_or with huntouched | ⟨model, header, blob, hlast⟩
      · have hclear := h.receiving me found was (.inl huntouched)
        simp only [IsClear, Verdict.error] at hclear ⊢
        omega
      · -- the slot slanders a blob that has been saved
        have hbound := h.bound
        simp only [hlast, Verdict.error, Verdict.isSlander]
        omega
    · by_contra hblame
      have hno : e.isIo = false := CacheError.isIo_of_blamesBlob (Bool.of_not_eq_false hblame)
      rw [hio] at hno
      cases hno
  | condemn me blob e was decode =>
    have hblame := Snapshot.blamesBlob_of_decode decode
    refine h.judge apart was ?_ (fun hio => ?_)
    · have hclear := h.receiving me _ was (.inr ⟨blob, e, rfl, decode⟩)
      have hone : (Verdict.condemned blob e : Verdict M).error.blamesBlob.toNat = 1 := by
        rw [Verdict.error, hblame]
        rfl
      rw [hone]
      simp only [IsClear] at hclear
      omega
    · rw [CacheError.isIo_of_blamesBlob hblame] at hio
      cases hio
  | mark me e was =>
    refine h.keep rfl rfl rfl rfl (fun hq => by cases hq) (fun _ hgood => ?_) (fun hq => by cases hq)
      (fun found hq => by cases hq) (fun hq => by cases hq)
    obtain ⟨hgood, hio⟩ := Bool.or_eq_false_iff.mp hgood
    refine .inr ⟨hgood, fun hme => ?_⟩
    rw [was, Activity.isMarking, Load.isMarking, hio] at hme
    cases hme
  | write me model header blob r was genuine =>
    exact h.write apart was genuine
  | commit me model r was =>
    have hcommitting : (x.activity me).isCommitting = true := by rw [was]; rfl
    exact h.keep rfl rfl rfl rfl (fun _ => hcommitting)
      (fun huntouched _ => absurd huntouched (h.committing me hcommitting)) (fun hq => by cases hq)
      (fun found hq => by cases hq) (fun hq => by cases hq)
  | settle me model r was =>
    refine h.keep rfl rfl rfl rfl (fun hq => by cases hq) (fun _ hgood => .inr ⟨hgood, fun hme => ?_⟩)
      (fun hq => by cases hq) (fun found hq => by cases hq) (fun hq => by cases hq)
    rw [was] at hme
    cases hme
  | remove me was => exact h.remove apart was
  | forget me was =>
    have hclear := h.clearing me (by rw [was]; rfl)
    exact h.keep rfl rfl rfl rfl (fun hq => by cases hq) (fun _ _ => .inl hclear) (fun hq => by cases hq)
      (fun found hq => by cases hq) (fun _ => hclear)
  | absolve me was =>
    have hclear := h.clearing me (by rw [was]; rfl)
    exact h.keep rfl rfl rfl rfl (fun hq => by cases hq) (fun _ _ => .inl hclear) (fun hq => by cases hq)
      (fun found hq => by cases hq) (fun _ => hclear)

end Patient

section Honest

variable {me : Actor} {q : Activity M}

theorem Activity.not_owes_of_isPending {a : Activity M} (h : a.isPending = false) (e : CacheError) :
    ¬ a.Owes e := by
  rintro (rfl | rfl) <;> cases h

theorem Activity.Owes.holdsLoad {a : Activity M} {e : CacheError} (h : a.Owes e) : a.holdsLoad = true := by
  rcases h with rfl | rfl <;> rfl

/-- A step without a report keeps the invariant. -/
theorem View.Honest.keep (h : x.Honest) (activity : y.activity = Function.update x.activity me q)
    (complaints : y.complaints = x.complaints) (verdicts : blames x.verdicts ≤ blames y.verdicts)
    (owing : ∀ e, q.Owes e → x.complaints + e.blamesBlob.toNat ≤ blames y.verdicts) : y.Honest := by
  refine ⟨by rw [complaints]; exact h.bound.trans verdicts, fun a e ha => ?_⟩
  rw [complaints]
  by_cases heq : a = me
  · rw [activity, heq, Function.update_self] at ha
    exact owing e ha
  · rw [activity, Function.update_of_ne heq] at ha
    exact (h.owing a e ha).trans verdicts

/-- The same for a thread that owes nothing afterwards. -/
theorem View.Honest.pass (h : x.Honest) (activity : y.activity = Function.update x.activity me q)
    (complaints : y.complaints = x.complaints) (verdicts : y.verdicts = x.verdicts)
    (owing : ∀ e, ¬ q.Owes e) : y.Honest :=
  h.keep activity complaints (by rw [verdicts]) fun e he => absurd he (owing e)

/-- A load owes what it has found. -/
theorem View.Honest.judge (h : x.Honest) {e : CacheError} {verdict : Verdict M}
    (herror : verdict.error = e) :
    View.Honest { x.move me (.load (.fail e)) with verdicts := x.verdicts ++ [verdict] } := by
  have hmore : blames (x.verdicts ++ [verdict]) = blames x.verdicts + e.blamesBlob.toNat := by
    rw [blames_concat, herror]
  have hbound := h.bound
  refine h.keep rfl rfl ?_ fun e' he => ?_
  · show blames x.verdicts ≤ blames (x.verdicts ++ [verdict])
    omega
  · have heq : e' = e := by
      rcases he with he | he <;> cases he
      rfl
    show x.complaints + e'.blamesBlob.toNat ≤ blames (x.verdicts ++ [verdict])
    rw [heq]
    omega

/-- **Every step keeps it** that only what has been found is reported. -/
theorem View.Honest.step (h : x.Honest) (apart : Apart x.activity) (hstep : View.Step c x y) : y.Honest := by
  cases hstep with
  | same => exact h
  | quiet me q was pending asking => exact h.pass rfl rfl rfl (Activity.not_owes_of_isPending pending)
  | refuse me found e was => exact h.judge rfl
  | condemn me blob e was decode => exact h.judge rfl
  | mark me e was =>
    refine h.keep rfl rfl (Nat.le_refl _) fun e' he => ?_
    have heq : e' = e := by
      rcases he with he | he <;> cases he
      rfl
    exact h.owing me e' (.inl (by rw [was, heq]))
  | complain me e was =>
    -- nobody else owes anything, and this load does not any more
    refine ⟨h.owing me e (.inr was), fun a e' ha => absurd ha ?_⟩
    exact apart.nobody_of_move was rfl (P := fun o => o.Owes e') (fun _ => Activity.Owes.holdsLoad)
      (fun ho => by rcases ho with ho | ho <;> cases ho) a
  | ask | turn | read | decode | install | publish | write | commit | settle | remove | forget | absolve =>
    exact h.pass rfl rfl rfl fun e he => by rcases he with he | he <;> cases he

end Honest

/-! ### Whole runs -/

section Runs

variable {content : σ → Option Bytes} {valid : M → Prop} {slot : σ} {holder : Holder M} {reports : Reports}
  {ls : List (Machine.Label σ M)} {w : Inquiry σ M}

end Runs

end SnapStore.Cache
