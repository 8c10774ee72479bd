import SnapStore.Proofs.Cache.Alone

namespace SnapStore.Cache

/-!
# What comes of a load

A load that nobody disturbs returns what is in memory, or the model in the blob, or nothing.  It comes to
nothing at all if it needs a lane that somebody else holds.

* `Load.ComesTo` — a load goes on from a place and comes out with a result.
* `Load.result?` — what comes of a load from the beginning, by `Load.comesTo_peek_iff`.
* `Load.result?_congr` — all that it depends on.
-/

variable {σ M : Type} {c : Setup σ M} {me : Actor} {o : Outside} {s s' : Shared σ M} {e : CacheError}
  {r : Option M}

/-- A load that nobody disturbs goes on from a place and comes out with a result, where each of its steps
learns the same from outside. -/
def Load.ComesTo (c : Setup σ M) (me : Actor) (o : Outside) (p : Load M) (s : Shared σ M) (r : Option M) :
    Prop :=
  ∃ n t, run (Load.next c me) (p, s) (List.replicate n o) = some (.done r, t)

/-- What comes of a load that has a model from the slot, or none, unless it waits for the write lane for
ever. -/
def Load.installed? (s : Shared σ M) : Option M → Option (Option M)
  | some model => if s.writeLane.isSome then none else some (some model)
  | none => some none

/-- What comes of a load that nobody disturbs, unless it waits for a lane for ever. -/
def Load.result? (c : Setup σ M) (o : Outside) (s : Shared σ M) : Option (Option M) :=
  match s.current with
  | some model => some (some model)
  | none =>
    if s.loadLane.isSome then none
    else if s.knownBad then some none
    else installed? s (modelOf c (o.outcome (c.slot.read s.slot)).toOption.join)

/-! ### Step by step -/

theorem Load.comesTo_done_iff {q : Option M} : ComesTo c me o (.done q) s r ↔ q = r := by
  constructor
  · rintro ⟨n, t, h⟩
    cases n <;> cases h
    rfl
  · rintro rfl
    exact ⟨0, s, rfl⟩

/-- A load comes to what it comes to after its next step. -/
theorem Load.comesTo_of_step {p p' : Load M} (h : p.step c me o s = some (p', s')) :
    ComesTo c me o p s r ↔ ComesTo c me o p' s' r := by
  have hnext : Load.next c me o (p, s) = some (p', s') := h
  constructor
  · rintro ⟨n, t, hrun⟩
    cases n with
    | zero =>
      cases hrun
      cases h
    | succ n =>
      rw [List.replicate_succ, run_cons, hnext, Option.bind_some] at hrun
      exact ⟨n, t, hrun⟩
  · rintro ⟨n, t, hrun⟩
    exact ⟨n + 1, t, by rw [List.replicate_succ, run_cons, hnext, Option.bind_some, hrun]⟩

/-- A load that waits for a lane comes to nothing. -/
theorem Load.not_comesTo_of_waiting {p : Load M} (hp : ∀ q, p ≠ .done q) (h : p.step c me o s = none) :
    ¬ ComesTo c me o p s r := by
  rintro ⟨n, t, hrun⟩
  cases n with
  | zero =>
    cases hrun
    exact hp r rfl
  | succ n =>
    rw [List.replicate_succ, run_cons, show Load.next c me o (p, s) = none from h] at hrun
    cases hrun

theorem Load.comesTo_leave_iff {q : Option M} : ComesTo c me o (.leave q) s r ↔ q = r :=
  (comesTo_of_step rfl).trans comesTo_done_iff

theorem Load.comesTo_fail_iff : ComesTo c me o (.fail e) s r ↔ none = r := by
  rw [comesTo_of_step rfl, comesTo_of_step rfl]
  exact comesTo_leave_iff

theorem Load.comesTo_install_iff {h : Snapshot.Header} {model : M} (hcurrent : s.current = none) :
    ComesTo c me o (.install h model) s r ↔ installed? s (some model) = some r := by
  cases hlane : s.writeLane with
  | some a =>
    have hstep : Load.step c me o s (.install h model) = none := by
      simp only [Load.step, hlane, Option.isNone_some, Bool.false_eq_true, if_false]
    exact iff_of_false (not_comesTo_of_waiting (fun q hq => by cases hq) hstep) (by simp [installed?, hlane])
  | none =>
    have hstep : Load.step c me o s (.install h model) =
        some (.publish h model, { s with writeLane := some me }) := by
      simp only [Load.step, hlane, Option.isNone_none, if_true]
    rw [comesTo_of_step hstep, comesTo_of_step rfl, comesTo_leave_iff, hcurrent, Option.getD_none]
    simp [installed?, hlane]

/-- A load that has read the slot goes on with the model in the blob, if there is one, and with none
otherwise. -/
theorem Load.step_receive (found : Except CacheError (Option Bytes)) :
    modelOf c (o.outcome found).toOption.join = none ∧
        (Load.step c me o s (.receive found) = some (.leave none, s) ∨
          ∃ e, Load.step c me o s (.receive found) = some (.fail e, s)) ∨
      ∃ h model, modelOf c (o.outcome found).toOption.join = some model ∧
        Load.step c me o s (.receive found) =
          some (.install h model, { s with stats := s.stats.loaded }) := by
  cases hfound : o.outcome found with
  | error e => exact .inl ⟨rfl, .inr ⟨e, by simp only [Load.step, hfound]⟩⟩
  | ok blob =>
    cases blob with
    | none => exact .inl ⟨rfl, .inl (by simp only [Load.step, hfound])⟩
    | some blob =>
      have hmodel : modelOf c (Except.ok (some blob) : Except CacheError (Option Bytes)).toOption.join =
          (Snapshot.decode c.codec c.modelVersion blob).toOption.map (·.2) := rfl
      rw [hmodel]
      cases hdecode : Snapshot.decode c.codec c.modelVersion blob with
      | error e => exact .inl ⟨rfl, .inr ⟨e, by simp only [Load.step, hfound, hdecode]⟩⟩
      | ok x => exact .inr ⟨x.1, x.2, rfl, by simp only [Load.step, hfound, hdecode]⟩

/-- What comes of a load that has read the slot. -/
theorem Load.comesTo_receive_iff {found : Except CacheError (Option Bytes)} (hcurrent : s.current = none) :
    ComesTo c me o (.receive found) s r ↔
      installed? s (modelOf c (o.outcome found).toOption.join) = some r := by
  rcases Load.step_receive (c := c) found with ⟨hnone, hleave | ⟨e, hfail⟩⟩ | ⟨h, model, hmodel, hinstall⟩
  · rw [comesTo_of_step hleave, comesTo_leave_iff, hnone, installed?, Option.some.injEq]
  · rw [comesTo_of_step hfail, comesTo_fail_iff, hnone, installed?, Option.some.injEq]
  · rw [comesTo_of_step hinstall, hmodel]
    exact comesTo_install_iff hcurrent

/-- **A load that nobody disturbs**, from the beginning to the end. -/
theorem Load.comesTo_peek_iff : ComesTo c me o .peek s r ↔ result? c o s = some r := by
  cases hcurrent : s.current with
  | some model =>
    have hstep : Load.step c me o s .peek = some (.done (some model), { s with stats := s.stats.hit }) := by
      simp only [Load.step, hcurrent]
    rw [comesTo_of_step hstep, comesTo_done_iff, result?, hcurrent, Option.some.injEq]
  | none =>
    have hpeek : Load.step c me o s .peek = some (.enter, s) := by simp only [Load.step, hcurrent]
    rw [comesTo_of_step hpeek, result?, hcurrent]
    cases hload : s.loadLane with
    | some a =>
      have hstep : Load.step c me o s .enter = none := by
        simp only [Load.step, hload, Option.isNone_some, Bool.false_eq_true, if_false]
      exact iff_of_false (not_comesTo_of_waiting (fun q hq => by cases hq) hstep) (fun hr => by cases hr)
    | none =>
      have henter : Load.step c me o s .enter = some (.recheck, { s with loadLane := some me }) := by
        simp only [Load.step, hload, Option.isNone_none, if_true]
      have hrecheck : Load.step c me o { s with loadLane := some me } .recheck =
          some (.consult, { s with loadLane := some me }) := by
        simp only [Load.step, hcurrent]
      rw [comesTo_of_step henter, comesTo_of_step hrecheck, comesTo_of_step rfl]
      cases hbad : s.knownBad with
      | true =>
        rw [if_pos rfl, comesTo_leave_iff, Option.isSome_none, if_neg Bool.false_ne_true, if_pos rfl,
          Option.some.injEq]
      | false =>
        rw [if_neg Bool.false_ne_true, comesTo_of_step rfl, Option.isSome_none, if_neg Bool.false_ne_true,
          if_neg Bool.false_ne_true]
        exact comesTo_receive_iff hcurrent

/-- It depends on the blob in the slot, on what is in memory, on the lanes and on whether the blob is known
to be bad. -/
theorem Load.result?_congr (hblob : (c.slot.read s'.slot).toOption.join = (c.slot.read s.slot).toOption.join)
    (hcurrent : s'.current = s.current) (hload : s'.loadLane = s.loadLane)
    (hwrite : s'.writeLane = s.writeLane)
    (hbad : s'.knownBad = s.knownBad) : result? c o s' = result? c o s := by
  have houtcome : (o.outcome (c.slot.read s'.slot)).toOption.join =
      (o.outcome (c.slot.read s.slot)).toOption.join := by
    unfold Outside.outcome
    split
    · rfl
    · exact hblob
  have hinstalled (found : Option M) : installed? s' found = installed? s found := by
    cases found with
    | none => rfl
    | some model => rw [installed?, installed?, hwrite]
  rw [result?, result?, hcurrent, hload, hbad, houtcome, hinstalled]

end SnapStore.Cache
