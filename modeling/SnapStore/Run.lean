namespace SnapStore

/-!
# Runs

A system with several threads is a step function: given a label, which says who does what and carries
whatever comes from outside, it takes a state to the next one, or is not defined there.

* `run step s ls` takes the steps `ls` one after another.
* `Reachable step s t` says that some steps lead from `s` to `t`.
* `Along step Q s ls` says that every step of a run has a property in the state in which it is taken.
* `run_append` takes a run apart; `run_induction`, `run_induction_along` and `Reachable.induction` are
  induction along a run.
* `run_map` and `exists_run_of_run` carry runs from one system to another.
* `eq_or_exists_of_concat` is about a record of a run, which grows at its end.
-/

variable {State Label : Type}

/-- The state after some steps, if each of them can be taken. -/
def run (step : Label → State → Option State) (s : State) (ls : List Label) : Option State :=
  ls.foldlM (fun s l => step l s) s

/-- Whether some steps lead from a state to another one. -/
def Reachable (step : Label → State → Option State) (s t : State) : Prop :=
  ∃ ls, run step s ls = some t

/-- Every step of a run has a property in the state in which it is taken. -/
def Along (step : Label → State → Option State) (Q : State → Label → Prop) : State → List Label → Prop
  | _, [] => True
  | s, l :: ls => Q s l ∧ ∀ t, step l s = some t → Along step Q t ls

variable {step : Label → State → Option State} {s t u : State}

@[simp] theorem run_nil : run step s [] = some s := rfl

theorem run_cons (l : Label) (ls : List Label) :
    run step s (l :: ls) = (step l s).bind fun t => run step t ls := rfl

theorem run_singleton (l : Label) : run step s [l] = step l s := by
  rw [run_cons]
  cases step l s <;> rfl

theorem run_append (ls ms : List Label) :
    run step s (ls ++ ms) = (run step s ls).bind fun t => run step t ms := by
  simp only [run, List.foldlM_append]
  rfl

theorem Reachable.refl (s : State) : Reachable step s s := ⟨[], rfl⟩

theorem Reachable.snoc {l : Label} (h : Reachable step s t) (hl : step l t = some u) :
    Reachable step s u := by
  obtain ⟨ls, hs⟩ := h
  exact ⟨ls ++ [l], by simp [run_append, run_cons, hs, hl]⟩

theorem Reachable.trans (h : Reachable step s t) (h' : Reachable step t u) : Reachable step s u := by
  obtain ⟨ls, hs⟩ := h
  obtain ⟨ms, ht⟩ := h'
  exact ⟨ls ++ ms, by rw [run_append, hs, Option.bind_some, ht]⟩

/-- What holds at first and is kept by every step of a certain kind holds after a run of such steps. -/
theorem run_induction {P : State → Prop} {Q : Label → Prop} {ls : List Label}
    (h : run step s ls = some t) (hls : ∀ l ∈ ls, Q l) (hs : P s)
    (hstep : ∀ t l u, P t → Q l → step l t = some u → P u) : P t := by
  induction ls generalizing s with
  | nil => cases h; exact hs
  | cons l ls ih =>
    rw [run_cons, Option.bind_eq_some_iff] at h
    obtain ⟨v, hv, h⟩ := h
    exact ih h (fun k hk => hls k (List.mem_cons_of_mem l hk))
      (hstep s l v hs (hls l List.mem_cons_self) hv)

theorem along_cons {Q : State → Label → Prop} {l : Label} {ls : List Label} (hq : Q s l)
    (hl : step l s = some t) (h : Along step Q t ls) : Along step Q s (l :: ls) := by
  refine ⟨hq, fun u hu => ?_⟩
  rw [hl, Option.some.injEq] at hu
  rwa [← hu]

/-- What holds of every step in every state holds along every run. -/
theorem along_of_forall {Q : State → Label → Prop} (h : ∀ s l, Q s l) (s : State) (ls : List Label) :
    Along step Q s ls := by
  induction ls generalizing s with
  | nil => trivial
  | cons l ls ih => exact ⟨h s l, fun t _ => ih t⟩

/-- What holds at first and is kept by every step with a property holds after a run of such steps. -/
theorem run_induction_along {P : State → Prop} {Q : State → Label → Prop} {ls : List Label}
    (h : run step s ls = some t) (hls : Along step Q s ls) (hs : P s)
    (hstep : ∀ t l u, P t → Q t l → step l t = some u → P u) : P t := by
  induction ls generalizing s with
  | nil => cases h; exact hs
  | cons l ls ih =>
    rw [run_cons, Option.bind_eq_some_iff] at h
    obtain ⟨v, hv, h⟩ := h
    exact ih h (hls.2 v hv) (hstep s l v hs hls.1 hv)

/-- What holds at first and is kept by every step holds in every reachable state. -/
theorem Reachable.induction {P : State → Prop} (h : Reachable step s t) (hs : P s)
    (hstep : ∀ t l u, P t → step l t = some u → P u) : P t := by
  obtain ⟨ls, h⟩ := h
  exact run_induction (Q := fun _ => True) h (fun _ _ => trivial) hs fun t l u ht _ => hstep t l u ht

/-! ### Runs of one system inside another -/

/-- If every step of a system is a step of another one, then so is every run. -/
theorem run_map {State' Label' : Type} {step' : Label' → State' → Option State'} {f : State → State'}
    {g : Label → Label'} (hstep : ∀ l s t, step l s = some t → step' (g l) (f s) = some (f t))
    {ls : List Label} (h : run step s ls = some t) : run step' (f s) (ls.map g) = some (f t) := by
  induction ls generalizing s with
  | nil =>
    cases h
    rfl
  | cons l ls ih =>
    rw [run_cons, Option.bind_eq_some_iff] at h
    obtain ⟨u, hu, h⟩ := h
    rw [List.map_cons, run_cons, hstep l s u hu, Option.bind_some, ih h]

/-- If a system only looks on at another one, then it has the runs of that one. -/
theorem exists_run_of_run {State' : Type} {step' : Label → State' → Option State'} {f : State → State'}
    (hstep : ∀ l s, (step l s).map f = step' l (f s)) {ls : List Label} {t' : State'}
    (h : run step' (f s) ls = some t') : ∃ t, run step s ls = some t ∧ f t = t' := by
  induction ls generalizing s with
  | nil =>
    cases h
    exact ⟨s, rfl, rfl⟩
  | cons l ls ih =>
    rw [run_cons, Option.bind_eq_some_iff] at h
    obtain ⟨u', hu', h⟩ := h
    rw [← hstep] at hu'
    obtain ⟨u, hu, rfl⟩ := Option.map_eq_some_iff.mp hu'
    obtain ⟨t, ht, hf⟩ := ih h
    exact ⟨t, by rw [run_cons, hu, Option.bind_some, ht], hf⟩

/-! ### Records -/

/-- Where an entry stands in a record that goes on: it is the new one, or stands where it stood. -/
theorem eq_or_exists_of_concat {α : Type} {l pre post : List α} {a b : α}
    (h : l ++ [a] = pre ++ b :: post) :
    pre = l ∧ b = a ∧ post = [] ∨ ∃ init, post = init ++ [a] ∧ l = pre ++ b :: init := by
  rcases post.eq_nil_or_concat with rfl | ⟨init, last, rfl⟩
  · obtain ⟨hl, ha⟩ := List.append_inj' h rfl
    exact .inl ⟨hl.symm, (List.singleton_inj.mp ha).symm, rfl⟩
  · refine .inr ⟨init, ?_⟩
    rw [List.concat_eq_append] at h ⊢
    rw [show pre ++ b :: (init ++ [last]) = (pre ++ b :: init) ++ [last] by simp] at h
    obtain ⟨hl, ha⟩ := List.append_inj' h rfl
    exact ⟨by rw [List.singleton_inj.mp ha], hl⟩

/-! ### Threads -/

/-- The number of a thread. -/
abbrev ThreadId := Nat

/-- What every thread is doing after the thread `i` went on to `a`. -/
def goTo {α : Type} (threads : ThreadId → α) (i : ThreadId) (a : α) : ThreadId → α :=
  fun j => if j = i then a else threads j

@[simp] theorem goTo_self {α : Type} (threads : ThreadId → α) (i : ThreadId) (a : α) :
    goTo threads i a i = a := by simp [goTo]

@[simp] theorem goTo_goTo {α : Type} (threads : ThreadId → α) (i : ThreadId) (a b : α) :
    goTo (goTo threads i a) i b = goTo threads i b := by
  funext j
  by_cases h : j = i <;> simp [goTo, h]

theorem goTo_of_ne {α : Type} (threads : ThreadId → α) {i j : ThreadId} (a : α) (h : j ≠ i) :
    goTo threads i a j = threads j := by simp [goTo, h]

end SnapStore
