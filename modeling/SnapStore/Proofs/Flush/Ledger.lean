import SnapStore.Flush.Signal

namespace SnapStore.Flush

/-!
# What becomes of requests

The signal only knows whether a save is pending and whether one is in flight.  A ledger beside it keeps
what has become of every single request that was accepted.

* `Signal.decide?_eq_some_iff` says what the writer can decide.
* `Fate` is what has become of a request, `Ledger` what has become of all of them.
* `Ledger.Fits` — a request waits just when a save is pending, and the writer has one just when a save
  is in flight.  Everything that callers and the writer do keeps this.
* `Ledger.settled_accept` and its neighbours — what is settled stays settled.
-/

namespace Signal

variable {s s' : Signal} {t : Timing} {now : Nat} {d : Decision}

/-! ### What is done with a signal -/

theorem request_of_closed (h : s.closed = true) : s.request now = (.closed, s) := by
  rw [request, if_pos h]

/-- Requests do not touch what the writer has in hand. -/
@[simp] theorem request_inFlight : (s.request now).2.inFlight = s.inFlight := by
  unfold request
  split
  · rfl
  · split <;> rfl

/-- **Decisions.** The writer takes whatever is pending: because it is to stop, or because it is due. -/
theorem decide?_eq_some_iff :
    s.decide? t now = some (d, s') ↔
      s' = { s with pending := none, inFlight := s.pending.isSome } ∧
        (s.closed = true ∧ d = .shutdown s.pending.isSome ∨
          s.closed = false ∧ d = .flush ∧ ∃ p, s.pending = some p ∧ p.due t ≤ now) := by
  unfold decide?
  cases hclosed : s.closed with
  | true => simp [and_comm, eq_comm]
  | false =>
    cases hp : s.pending with
    | none => simp
    | some p =>
      by_cases hdue : p.due t ≤ now <;> simp [hdue, and_comm, eq_comm]

end Signal

/-- What has become of an accepted request. -/
inductive Fate
  | /-- It waits in the pending save. -/ waiting
  | /-- The writer has taken it. -/ taken
  | /-- It has been dropped. -/ cancelled
  | /-- The writer is done with it. -/ finished
  deriving DecidableEq, Repr

namespace Fate

/-- Whether nothing will come of a request any more. -/
def isSettled : Fate → Bool
  | .cancelled | .finished => true
  | _ => false

/-- The pending save is dropped. -/
def cancel : Fate → Fate
  | .waiting => .cancelled
  | f => f

/-- The writer takes the pending save. -/
def take : Fate → Fate
  | .waiting => .taken
  | f => f

/-- The writer is done with what it has taken. -/
def finish : Fate → Fate
  | .taken => .finished
  | f => f

end Fate

/-- What has become of the requests that were accepted, in the order in which they came. -/
abbrev Ledger := List Fate

namespace Ledger

/-- A request got an answer; it enters the ledger if it was accepted. -/
def accept (l : Ledger) : Outcome → Ledger
  | .closed => l
  | .scheduled | .coalesced => l ++ [.waiting]

/-- The pending save is dropped. -/
def cancel (l : Ledger) : Ledger := l.map .cancel

/-- The writer takes the pending save. -/
def take (l : Ledger) : Ledger := l.map .take

/-- The writer is done with what it has taken. -/
def finish (l : Ledger) : Ledger := l.map .finish

/-- The request with the number `k` was accepted, and nothing will come of it any more. -/
def Settled (l : Ledger) (k : Nat) : Prop := ∃ f, l[k]? = some f ∧ f.isSettled = true

/-! ### Ledgers and signals -/

/-- A request waits just when a save is pending, and the writer has one just when a save is in
flight. -/
structure Fits (s : Signal) (l : Ledger) : Prop where
  waiting_iff : .waiting ∈ l ↔ s.pending.isSome = true
  taken_iff : .taken ∈ l ↔ s.inFlight = true

variable {s : Signal} {l : Ledger}

theorem waiting_notMem_cancel : .waiting ∉ l.cancel := by
  rw [cancel, List.mem_map]
  rintro ⟨f, -, hf⟩
  cases f <;> cases hf

theorem taken_mem_cancel_iff : .taken ∈ l.cancel ↔ .taken ∈ l := by
  rw [cancel, List.mem_map]
  constructor
  · rintro ⟨f, hmem, hf⟩
    cases f <;> first | exact hmem | cases hf
  · exact fun hmem => ⟨.taken, hmem, rfl⟩

theorem waiting_notMem_take : .waiting ∉ l.take := by
  rw [take, List.mem_map]
  rintro ⟨f, -, hf⟩
  cases f <;> cases hf

theorem taken_mem_take_iff : .taken ∈ l.take ↔ .waiting ∈ l ∨ .taken ∈ l := by
  rw [take, List.mem_map]
  constructor
  · rintro ⟨f, hmem, hf⟩
    cases f with
    | waiting => exact .inl hmem
    | taken => exact .inr hmem
    | cancelled | finished => cases hf
  · rintro (hmem | hmem)
    · exact ⟨.waiting, hmem, rfl⟩
    · exact ⟨.taken, hmem, rfl⟩

theorem waiting_mem_finish_iff : .waiting ∈ l.finish ↔ .waiting ∈ l := by
  rw [finish, List.mem_map]
  constructor
  · rintro ⟨f, hmem, hf⟩
    cases f <;> first | exact hmem | cases hf
  · exact fun hmem => ⟨.waiting, hmem, rfl⟩

theorem taken_notMem_finish : .taken ∉ l.finish := by
  rw [finish, List.mem_map]
  rintro ⟨f, -, hf⟩
  cases f <;> cases hf

/-- A fresh signal has no requests. -/
theorem fits_nil : Fits {} [] := by
  constructor <;> simp

namespace Fits

theorem accept (h : Fits s l) (now : Nat) : Fits (s.request now).2 (l.accept (s.request now).1) := by
  unfold Signal.request
  by_cases hclosed : s.closed = true
  · rw [if_pos hclosed]
    exact h
  · rw [if_neg hclosed]
    cases hp : s.pending with
    | none => constructor <;> simp [Ledger.accept, h.taken_iff]
    | some p => constructor <;> simp [Ledger.accept, h.taken_iff]

theorem cancel (h : Fits s l) : Fits s.cancel.2 l.cancel where
  waiting_iff := ⟨fun hmem => absurd hmem waiting_notMem_cancel, fun hp => by cases hp⟩
  taken_iff := by rw [taken_mem_cancel_iff, h.taken_iff]; rfl

theorem close (h : Fits s l) : Fits s.close l := ⟨h.waiting_iff, h.taken_iff⟩

/-- The writer decides while nothing is in flight: what it takes is what waits. -/
theorem take (h : Fits s l) (hfree : s.inFlight = false) {t : Timing} {now : Nat} {d : Decision}
    {s' : Signal} (hd : s.decide? t now = some (d, s')) : Fits s' l.take := by
  obtain ⟨rfl, -⟩ := Signal.decide?_eq_some_iff.mp hd
  refine ⟨⟨fun hmem => absurd hmem waiting_notMem_take, fun hp => by cases hp⟩, ?_⟩
  rw [taken_mem_take_iff, h.waiting_iff, h.taken_iff, hfree]
  simp

theorem finish (h : Fits s l) : Fits s.finish l.finish where
  waiting_iff := by rw [waiting_mem_finish_iff, h.waiting_iff]; rfl
  taken_iff := ⟨fun hmem => absurd hmem taken_notMem_finish, fun hp => by cases hp⟩

/-- In a signal that is idle nothing has been taken, and what waits will only be looked at when the
writer stops. -/
theorem of_isIdle (h : Fits s l) (hidle : s.isIdle = true) {f : Fate} (hf : f ∈ l) :
    f.isSettled = true ∨ f = .waiting ∧ s.closed = true := by
  simp only [Signal.isIdle, Bool.and_eq_true, Bool.not_eq_true', Bool.and_eq_false_iff,
    Bool.not_eq_false'] at hidle
  obtain ⟨hpending, hflight⟩ := hidle
  cases f with
  | cancelled | finished => exact .inl rfl
  | taken =>
    have := h.taken_iff.mp hf
    rw [hflight] at this
    cases this
  | waiting =>
    have hp := h.waiting_iff.mp hf
    rcases hpending with hnone | hclosed
    · rw [hp] at hnone
      cases hnone
    · exact .inr ⟨rfl, hclosed⟩

end Fits

/-! ### What is settled stays settled -/

theorem settled_map {k : Nat} {g : Fate → Fate} (hg : ∀ f, f.isSettled = true → g f = f)
    (h : Settled l k) : Settled (l.map g) k := by
  obtain ⟨f, hk, hf⟩ := h
  refine ⟨f, ?_, hf⟩
  rw [List.getElem?_map, hk, Option.map_some, hg f hf]

theorem settled_accept {k : Nat} (h : Settled l k) (o : Outcome) : Settled (l.accept o) k := by
  obtain ⟨f, hk, hf⟩ := h
  have hlt := (List.getElem?_eq_some_iff.mp hk).1
  cases o with
  | closed => exact ⟨f, hk, hf⟩
  | scheduled | coalesced => exact ⟨f, by rw [accept, List.getElem?_append_left hlt, hk], hf⟩

theorem settled_cancel {k : Nat} (h : Settled l k) : Settled l.cancel k :=
  settled_map (fun f hf => by cases f <;> first | rfl | cases hf) h

theorem settled_take {k : Nat} (h : Settled l k) : Settled l.take k :=
  settled_map (fun f hf => by cases f <;> first | rfl | cases hf) h

theorem settled_finish {k : Nat} (h : Settled l k) : Settled l.finish k :=
  settled_map (fun f hf => by cases f <;> first | rfl | cases hf) h

end Ledger

end SnapStore.Flush
