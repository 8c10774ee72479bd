import SnapStore.Proofs.Cache.Alone
import SnapStore.Proofs.Cache.Count
import Mathlib.Data.List.Chain

namespace SnapStore.Cache

/-!
# Generations and the slot

A cache takes the blob that it finds in its slot at first into account before it counts on.  From then on the
count is the generation of the blob in the slot, as long as nobody else changes the slot and the slot can
be read when the first save asks for it.

* `Machine.Settled` — the blob that was in the slot at first has been taken into account.
* `Machine.Exact` — what that means for the count, for the slot and for the loads that have read it; every
  step keeps it, as `Machine.Exact.turn` says.
* `Chronicle.Exact` — so the generations of the saves follow each other without a gap.
-/

variable {σ M : Type} {c : Setup σ M} {m m' : Machine σ M} {me : Actor} {o : Outside}
  {content : σ → Option Bytes}

/-! ### What is known of the first blob -/

/-- Whether a thread has read the slot for a save and does not know yet what that means for the count. -/
def Activity.isSeeding : Activity M → Bool
  | .save p => p.isSeeding
  | _ => false

/-- The count takes the blob into account that was in the slot at first. -/
def Machine.Settled (m : Machine σ M) : Prop :=
  m.shared.seeded = true ∧ ∀ a, (m.activity a).isSeeding = false

/-- The generation of the blob that a load has read, if it is one that this library could have written. -/
def Load.readGeneration? : Load M → Option UInt64
  | .receive found => generation? found
  | .install h _ | .publish h _ => some h.generation
  | _ => none

/-- Whether a thread learns that the slot cannot be read for its save. -/
def Activity.misreads (o : Outside) : Activity M → Bool
  | .save (.receive _ found) => ! (o.outcome found).isOk
  | _ => false

/-- A step that leaves the slot to the cache and by which no save learns that it cannot be read. -/
def Machine.Legible (m : Machine σ M) : Label σ M → Prop
  | .stranger _ => False
  | .caller i o => (m.activity (.caller i)).misreads o = false
  | .writer o => (m.activity .writer).misreads o = false
  | _ => True

theorem Machine.Legible.of_label (h : m.Legible (.of me o)) : (m.activity me).misreads o = false := by
  cases me <;> exact h

theorem Activity.holdsWrite_of_isSeeding {a : Activity M} (h : a.isSeeding = true) :
    a.holdsWrite = true := by
  cases a with
  | save p => cases p <;> first | rfl | cases h
  | _ => cases h

theorem Load.holdsLoad_of_readGeneration? {p : Load M} {g : UInt64} (h : p.readGeneration? = some g) :
    p.holdsLoad = true := by
  cases p <;> first | rfl | cases h

theorem Load.readGeneration?_of_isAtEdge {p : Load M} (h : (Activity.load p).isAtEdge = true) :
    p.readGeneration? = none := by
  cases p <;> first | rfl | cases h

/-- A snapshot is only decoded from a blob that this library could have written. -/
theorem generation?_of_decode {codec : Codec M} {expected : UInt32} {blob : Bytes}
    {header : Snapshot.Header} {model : M}
    (h : Snapshot.decode codec expected blob = .ok (header, model)) :
    generation? (.ok (some blob)) = some header.generation := by
  unfold Snapshot.decode at h
  cases htake : Snapshot.takeHeader blob with
  | error e =>
    rw [htake] at h
    cases h
  | ok r =>
    have hread : Snapshot.readHeader blob = .ok r.1 := by
      simp only [Snapshot.readHeader, htake, bind, Except.bind, pure, Except.pure]
    simp only [htake, bind, Except.bind] at h
    by_cases hformat : r.1.formatVersion = Snapshot.formatVersion
    · simp only [hformat, ne_eq, not_true_eq_false, if_false, pure, Except.pure] at h
      split at h
      · cases h
      · split at h <;> cases h
        simp only [generation?, hread, hformat, if_true]
    · simp only [ne_eq, hformat, not_false_eq_true, if_true] at h
      cases h

/-- What a load has read is what it had read before, or what the slot holds. -/
theorem Load.readGeneration?_of_step (hslot : c.slot.Lawful content) {s s' : Shared σ M} {p p' : Load M}
    (h : p.step c me o s = some (p', s')) {g : UInt64} (hg : p'.readGeneration? = some g) :
    p.readGeneration? = some g ∨ generation? (.ok (content s.slot)) = some g := by
  cases p with
  | peek | recheck | enter =>
    simp only [Load.step] at h
    split at h <;> cases h <;> cases hg
  | consult =>
    cases h
    split at hg <;> cases hg
  | fetch =>
    cases h
    replace hg : generation? (c.slot.read s.slot) = some g := hg
    cases hread : c.slot.read s.slot with
    | error e =>
      rw [hread] at hg
      cases hg
    | ok b =>
      rw [hread, hslot.read hread] at hg
      exact .inr hg
  | receive found =>
    simp only [Load.step] at h
    split at h
    · cases h
      cases hg
    · cases h
      cases hg
    · rename_i blob hfound
      split at h <;> rename_i hdecode <;> cases h <;> cases hg
      rw [Load.readGeneration?, eq_of_outcome hfound]
      exact .inl (generation?_of_decode hdecode)
  | fail | complain | publish | leave =>
    cases h
    cases hg
  | install header model =>
    simp only [Load.step] at h
    split at h <;> cases h
    exact .inl hg
  | done result => cases h

/-- What a save has read is what the slot holds. -/
theorem Save.eq_content_of_step (hslot : c.slot.Lawful content) {s s' : Shared σ M} {p : Save M} {model : M}
    {b : Option Bytes} (h : p.step c me o s = some (.receive model (.ok b), s')) : b = content s.slot := by
  cases p with
  | seed =>
    simp only [Save.step] at h
    split at h
    · cases h
    · rw [Option.some.injEq, Prod.mk.injEq, Save.receive.injEq] at h
      exact hslot.read h.1.2
  | enter | capture | receive | encode | write =>
    simp only [Save.step] at h
    split at h <;> cases h
  | _ => cases h

/-! ### The invariant -/

/-- Until the count is settled nobody has counted.  From then on it is the generation of the blob in the slot
and of the last save, and no load has read anything beyond it. -/
structure Machine.Exact (c : Setup σ M) (content : σ → Option Bytes) (m : Machine σ M)
    (numbers : List UInt64) : Prop where
  fresh : ¬ m.Settled → m.count = 0 ∧ numbers = []
  slot : m.Settled → ∀ g, generation? (.ok (content m.shared.slot)) = some g → m.count = g
  last : ∀ g, numbers.getLast? = some g → m.count = g
  loads : ∀ a p g, m.activity a = .load p → p.readGeneration? = some g →
    (m.Settled → g ≤ m.count) ∧
      (¬ m.Settled → generation? (.ok (content m.shared.slot)) = some g)
  seeds : ∀ a model b, m.activity a = .save (.receive model (.ok b)) → b = content m.shared.slot

section Invariant

variable {numbers : List UInt64}

/-- Only a thread with the write lane in hand can settle the count. -/
theorem Machine.settled_iff (others : ∀ a, a ≠ me → m'.activity a = m.activity a)
    (seeded : m'.shared.seeded = m.shared.seeded) (was : (m.activity me).isSeeding = false)
    (now : (m'.activity me).isSeeding = false) : m'.Settled ↔ m.Settled := by
  unfold Machine.Settled
  rw [seeded]
  refine and_congr_right fun _ => forall_congr' fun a => ?_
  by_cases ha : a = me
  · rw [ha, was, now]
  · rw [others a ha]

/-- While a thread has the write lane in hand, no other one is looking for the generation in the slot. -/
theorem Machine.Lanes.settled (lanes : m.Lanes) (holds : (m.activity me).holdsWrite = true)
    (others : ∀ a, a ≠ me → m'.activity a = m.activity a) (seeded : m'.shared.seeded = true)
    (now : (m'.activity me).isSeeding = false) : m'.Settled := by
  refine ⟨seeded, fun a => ?_⟩
  by_cases ha : a = me
  · rw [ha, now]
  · rw [others a ha]
    by_contra hseeding
    exact ha (lanes.write.unique (Activity.holdsWrite_of_isSeeding (Bool.of_not_eq_false hseeding)) holds)

theorem Machine.not_settled_of_isSeeding {a : Actor} (h : (m.activity a).isSeeding = true) :
    ¬ m.Settled := fun hs => by
  rw [hs.2 a] at h
  cases h

/-- A step that changes neither the count nor the slot keeps the invariant, if the thread that takes it has
read nothing but the slot. -/
theorem Machine.Exact.still (h : m.Exact c content numbers) (count : m'.count = m.count)
    (settled : m'.Settled ↔ m.Settled) (slot : content m'.shared.slot = content m.shared.slot)
    (others : ∀ a, a ≠ me → m'.activity a = m.activity a)
    (loads : ∀ p g, m'.activity me = .load p → p.readGeneration? = some g →
      (∃ q, m.activity me = .load q ∧ q.readGeneration? = some g) ∨
        generation? (.ok (content m.shared.slot)) = some g)
    (seeds : ∀ model b, m'.activity me = .save (.receive model (.ok b)) → b = content m.shared.slot) :
    m'.Exact c content numbers := by
  refine ⟨?_, ?_, ?_, fun a p g hp hg => ?_, fun a model b hp => ?_⟩
  · rw [settled, count]
    exact h.fresh
  · rw [settled, count, slot]
    exact h.slot
  · rw [count]
    exact h.last
  · rw [settled, count, slot]
    by_cases ha : a = me
    · rw [ha] at hp
      rcases loads p g hp hg with ⟨q, hq, hg⟩ | hg
      · exact h.loads me q g hq hg
      · exact ⟨fun hs => UInt64.le_of_eq (h.slot hs g hg).symm, fun _ => hg⟩
    · rw [others a ha] at hp
      exact h.loads a p g hp hg
  · rw [slot]
    by_cases ha : a = me
    · exact seeds model b (by rw [← ha]; exact hp)
    · exact h.seeds a model b (by rw [← others a ha]; exact hp)

/-- The step that takes the first blob into account establishes that the count is its generation. -/
theorem Machine.Exact.settle (h : m.Exact c content numbers) (unsettled : ¬ m.Settled)
    (settled : m'.Settled) (slot : content m'.shared.slot = content m.shared.slot)
    (others : ∀ a, a ≠ me → m'.activity a = m.activity a)
    (rests : ∀ p g, m'.activity me = .load p → p.readGeneration? ≠ some g)
    (count : ∀ g, generation? (.ok (content m.shared.slot)) = some g → m'.count = g) :
    m'.Exact c content numbers := by
  refine ⟨fun hs => absurd settled hs, fun _ => by rw [slot]; exact count, ?_,
    fun a p g hp hg => ⟨fun _ => ?_, fun hs => absurd settled hs⟩, fun a model b hp => ?_⟩
  · rw [(h.fresh unsettled).2]
    intro g hg
    cases hg
  · -- what a load has read before is what the slot still holds
    by_cases ha : a = me
    · exact absurd hg (rests p g (by rw [← ha]; exact hp))
    · rw [others a ha] at hp
      exact UInt64.le_of_eq (count g ((h.loads a p g hp hg).2 unsettled)).symm
  · exact absurd settled (Machine.not_settled_of_isSeeding (a := a) (by rw [hp]; rfl))

theorem max_eq_left_of_word {a b : UInt64} (h : b ≤ a) : max a b = a := by
  rw [show max a b = if a ≤ b then b else a from rfl]
  split
  · exact UInt64.le_antisymm h (by assumption)
  · rfl

theorem max_zero_of_word (b : UInt64) : max 0 b = b := by
  rw [show max 0 b = if 0 ≤ b then b else 0 from rfl, if_pos UInt64.zero_le]

/-- A load keeps the invariant: what it publishes has been counted, or is counted now. -/
theorem Machine.Exact.load (h : m.Exact c content numbers) (lanes : m.Lanes) (lanes' : m'.Lanes)
    (hslot : c.slot.Lawful content) {p p' : Load M} (was : m.activity me = .load p)
    (now : m'.activity me = .load p') (others : ∀ a, a ≠ me → m'.activity a = m.activity a)
    (step : p.step c me o m.shared = some (p', m'.shared)) : m'.Exact c content numbers := by
  have hs : content m'.shared.slot = content m.shared.slot := by rw [(Load.effect hslot step).1]
  have hloads (q : Load M) (g : UInt64) (hq : m'.activity me = .load q)
      (hg : q.readGeneration? = some g) : (∃ q, m.activity me = .load q ∧ q.readGeneration? = some g) ∨
        generation? (.ok (content m.shared.slot)) = some g := by
    rw [now, Activity.load.injEq] at hq
    subst hq
    exact (Load.readGeneration?_of_step hslot step hg).imp_left fun hp => ⟨p, was, hp⟩
  have hseeds (model : M) (b : Option Bytes) (hp : m'.activity me = .save (.receive model (.ok b))) :
      b = content m.shared.slot := by
    rw [now] at hp
    cases hp
  rcases Machine.count_of_load lanes lanes' was now others step with ⟨hcount, hp⟩ |
    ⟨header, model, rfl, hcount⟩
  · obtain ⟨-, hseeded, -⟩ | ⟨header, model, hpublish, -⟩ := Load.generation_eq step
    · refine h.still hcount (Machine.settled_iff others hseeded ?_ ?_) hs others hloads hseeds
      · rw [was]
        rfl
      · rw [now]
        rfl
    · exact absurd hpublish (hp header model)
  · -- with the write lane in hand, nobody else is looking for the generation in the slot
    have hread := h.loads me _ header.generation was rfl
    have hdone : m'.shared.seeded = true ∧ p'.readGeneration? = none := by
      simp only [Load.step, Option.some.injEq, Prod.mk.injEq] at step
      obtain ⟨hp', hshared⟩ := step
      exact ⟨by rw [← hshared], by rw [← hp']; rfl⟩
    have hsettled : m'.Settled :=
      lanes.settled (by rw [was]; rfl) others hdone.1 (by rw [now]; rfl)
    by_cases hbefore : m.Settled
    · rw [max_eq_left_of_word (hread.1 hbefore)] at hcount
      exact h.still hcount ⟨fun _ => hbefore, fun _ => hsettled⟩ hs others hloads hseeds
    · refine h.settle hbefore hsettled hs others (fun q g hq hg => ?_) fun g hg => ?_
      · rw [now, Activity.load.injEq] at hq
        rw [← hq, hdone.2] at hg
        cases hg
      · rw [hread.2 hbefore, Option.some.injEq] at hg
        rw [hcount, (h.fresh hbefore).1, max_zero_of_word, hg]

/-- A blob is made with a generation that can be found out again. -/
theorem generation?_of_encode {codec : Codec M} {h : Snapshot.Header} {model : M} {level : Int}
    {blob : Bytes} (hformat : h.formatVersion = Snapshot.formatVersion)
    (hblob : Snapshot.encode codec h model level = .ok blob) :
    generation? (.ok (some blob)) = some h.generation := by
  simp only [generation?, Snapshot.readHeader_encode hblob, hformat, if_true]

/-- The step that fills the slot with the next generation keeps the invariant, as long as the count does not
begin again at zero. -/
theorem Machine.Exact.fill (h : m.Exact c content numbers) (before : m.Settled) (after : m'.Settled)
    (hnext : m.count + 1 ≠ 0) (count : m'.count = m.count + 1)
    (slot : generation? (.ok (content m'.shared.slot)) = some (m.count + 1))
    (others : ∀ a, a ≠ me → m'.activity a = m.activity a)
    (loads : ∀ p, m'.activity me ≠ .load p) :
    m'.Exact c content (numbers ++ [m.count + 1]) := by
  refine ⟨fun hs => absurd after hs, fun _ g hg => ?_, fun g hg => ?_,
    fun a p g hp hg => ⟨fun _ => ?_, fun hs => absurd after hs⟩, fun a model b hp => ?_⟩
  · rw [slot, Option.some.injEq] at hg
    rw [count, hg]
  · rw [List.getLast?_concat, Option.some.injEq] at hg
    rw [count, hg]
  · by_cases ha : a = me
    · rw [ha] at hp
      exact absurd hp (loads p)
    · rw [others a ha] at hp
      -- what a load has read before has been counted, and stays below the new count
      have hle := (h.loads a p g hp hg).1 before
      rw [count]
      grind
  · exact absurd after (Machine.not_settled_of_isSeeding (a := a) (by rw [hp]; rfl))

/-- The answer to a save is what settles the count, if the slot could be read. -/
theorem Machine.Exact.receive (h : m.Exact c content numbers) (lanes : m.Lanes)
    (seeded : m.shared.seeded = true) {model : M} {found : Except CacheError (Option Bytes)}
    (was : m.activity me = .save (.receive model found)) (now : m'.activity me = .save (.encode model))
    (others : ∀ a, a ≠ me → m'.activity a = m.activity a)
    (legible : (m.activity me).misreads o = false) (before : m.count = m.shared.generation)
    (after : m'.count = m'.shared.generation)
    (eq : m'.shared = { m.shared with
      generation := (generation? (o.outcome found)).elim m.shared.generation (max m.shared.generation) }) :
    m'.Exact c content numbers := by
  have hunsettled : ¬ m.Settled := Machine.not_settled_of_isSeeding (by rw [was]; rfl)
  have hsettled : m'.Settled :=
    lanes.settled (by rw [was]; rfl) others (by rw [eq]; exact seeded) (by rw [now]; rfl)
  -- the answer is what the slot holds
  have hfound : generation? (o.outcome found) = generation? (.ok (content m.shared.slot)) := by
    rw [was] at legible
    cases hout : o.outcome found with
    | error e =>
      simp only [Activity.misreads, hout] at legible
      cases legible
    | ok b => rw [h.seeds me model b (by rw [was, eq_of_outcome hout])]
  have hzero : m.shared.generation = 0 := before.symm.trans (h.fresh hunsettled).1
  refine h.settle hunsettled hsettled (by rw [eq]) others (fun q g hq => ?_) fun g hg => ?_
  · rw [now] at hq
    cases hq
  · rw [after, eq, hfound, hg, hzero]
    exact max_zero_of_word g

/-- A save that fills the slot has taken the blob in it into account. -/
theorem Machine.Exact.write (h : m.Exact c content numbers) (lanes : m.Lanes) (hslot : c.slot.Lawful content)
    {model : M} {header : Snapshot.Header} {blob : Bytes} {r : SaveReport}
    (was : m.activity me = .save (.write model header blob))
    (now : m'.activity me = .save (.commit model r))
    (others : ∀ a, a ≠ me → m'.activity a = m.activity a)
    (hnumbered : (Save.write model header blob).Numbered c m.shared)
    (before : m.count = m.shared.generation) (after : m'.count = header.generation)
    (hroom : header.generation ≠ 0) (seeded : m'.shared.seeded = m.shared.seeded)
    (done : o.change (c.slot.write blob) m.shared.slot = (.ok (), m'.shared.slot)) :
    m'.Exact c content (numbers ++ [header.generation]) := by
  obtain ⟨hseeded, hnext, hformat, hblob⟩ := hnumbered
  rw [← before] at hnext
  have hsettled : m.Settled :=
    lanes.settled (by rw [was]; rfl) (fun _ _ => rfl) hseeded (by rw [was]; rfl)
  have hsettled' : m'.Settled :=
    lanes.settled (by rw [was]; rfl) others (by rw [seeded, hseeded]) (by rw [now]; rfl)
  rw [hnext] at hroom after ⊢
  refine h.fill hsettled hsettled' hroom after ?_ others fun p hp => ?_
  · rw [content_of_write hslot done, generation?_of_encode hformat hblob, hnext]
  · rw [now] at hp
    cases hp

/-- A save keeps the invariant: it takes the blob in the slot into account before it counts on. -/
theorem Machine.Exact.save (h : m.Exact c content numbers) (lanes : m.Lanes) (lanes' : m'.Lanes)
    (numbered : m.Numbered c) (hslot : c.slot.Lawful content) {p p' : Save M}
    (was : m.activity me = .save p) (now : m'.activity me = .save p')
    (others : ∀ a, a ≠ me → m'.activity a = m.activity a)
    (step : p.step c me o m.shared = some (p', m'.shared))
    (legible : (m.activity me).misreads o = false)
    (hroom : ∀ g ∈ generations (p.deed? c o m.shared.slot).toList, g ≠ 0) :
    m'.Exact c content (numbers ++ generations (p.deed? c o m.shared.slot).toList) := by
  have hloads (q : Load M) (g : UInt64) (hq : m'.activity me = .load q) (_ : q.readGeneration? = some g) :
      (∃ q, m.activity me = .load q ∧ q.readGeneration? = some g) ∨
        generation? (.ok (content m.shared.slot)) = some g := by
    rw [now] at hq
    cases hq
  have hseeds (model : M) (b : Option Bytes) (hp : m'.activity me = .save (.receive model (.ok b))) :
      b = content m.shared.slot := by
    rw [now, Activity.save.injEq] at hp
    rw [hp] at step
    exact Save.eq_content_of_step hslot step
  have hcount := Machine.count_of_save lanes lanes' was now others
  cases Save.counting step with
  | still count seeded isSeeding isSeeding' deed slot =>
    have hsettled : m'.Settled ↔ m.Settled :=
      Machine.settled_iff others seeded (by rw [was]; exact isSeeding) (by rw [now]; exact isSeeding')
    rw [deed]
    exact (List.append_nil numbers).symm ▸
      h.still (Machine.count_of_still lanes lanes' was now others count) hsettled (slot content hslot)
        others hloads hseeds
  | seed model fresh eq =>
    -- the count is settled only by the answer
    have hbefore : ¬ m.Settled := fun hs => Bool.false_ne_true (fresh.symm.trans hs.1)
    have hafter : ¬ m'.Settled := Machine.not_settled_of_isSeeding (by rw [now]; rfl)
    refine (List.append_nil numbers).symm ▸ h.still ?_
      ⟨fun hs => absurd hs hafter, fun hs => absurd hs hbefore⟩ (by rw [eq]) others hloads hseeds
    rw [(hcount rfl).1, (hcount rfl).2, eq]
    rfl
  | receive model found eq =>
    exact (List.append_nil numbers).symm ▸
      h.receive lanes (numbered me _ was) was now others legible (hcount rfl).1 (hcount rfl).2 eq
  | write model header blob done eq =>
    have hdeed : generations ((Save.write model header blob).deed? c o m.shared.slot).toList =
        [header.generation] := by
      simp only [Save.deed?, done]
      rfl
    rw [hdeed] at hroom ⊢
    exact h.write lanes hslot was now others (numbered me _ was) (hcount rfl).1 (hcount rfl).2
      (hroom _ (List.mem_singleton.mpr rfl)) (by rw [eq]) done

/-- An invalidation keeps the invariant: with both lanes in hand, nobody has read what it removes. -/
theorem Machine.Exact.invalidate (h : m.Exact c content numbers) (lanes : m.Lanes) (lanes' : m'.Lanes)
    (hslot : c.slot.Lawful content) {p p' : Invalidation} (was : m.activity me = .invalidate p)
    (now : m'.activity me = .invalidate p') (others : ∀ a, a ≠ me → m'.activity a = m.activity a)
    (step : p.step c me o m.shared = some (p', m'.shared)) : m'.Exact c content numbers := by
  have hcount := Machine.count_of_invalidate lanes lanes' was now others step
  have hsettled : m'.Settled ↔ m.Settled :=
    Machine.settled_iff others (Invalidation.generation_eq step).2 (by rw [was]; rfl) (by rw [now]; rfl)
  have hother {a : Actor} {b : Activity M} (hb : m'.activity a = b)
      (hne : b ≠ .invalidate p') : a ≠ me ∧ m.activity a = b := by
    have ha : a ≠ me := fun ha => hne (by rw [← hb, ha, now])
    exact ⟨ha, by rw [← hb, others a ha]⟩
  have hkeeps (hs : content m'.shared.slot = content m.shared.slot) : m'.Exact c content numbers := by
    refine h.still hcount hsettled hs others (fun q g hq _ => ?_) fun model b hp => ?_
    · rw [now] at hq
      cases hq
    · rw [now] at hp
      cases hp
  obtain ⟨-, ⟨hs, -⟩ | ⟨hs, -, -, rfl, -⟩ | ⟨hs, -⟩⟩ := Invalidation.effect hslot step
  · exact hkeeps hs
  on_goal 2 => exact hkeeps hs
  -- the slot is empty, and whoever has read it would have one of the lanes in hand
  refine ⟨?_, fun _ g hg => ?_, ?_, fun a q g hq hg => ?_, fun a model b hp => ?_⟩
  · rw [hsettled, hcount]
    exact h.fresh
  · rw [hs] at hg
    cases hg
  · rw [hcount]
    exact h.last
  · obtain ⟨ha, hq⟩ := hother hq (by simp)
    refine absurd (lanes.load.unique ?_ ?_) ha
    · rw [hq]
      exact Load.holdsLoad_of_readGeneration? hg
    · rw [was]
      rfl
  · obtain ⟨ha, hp⟩ := hother hp (by simp)
    refine absurd (lanes.write.unique ?_ ?_) ha
    · rw [hp]
      rfl
    · rw [was]
      rfl

/-- A thread outside the lanes has read nothing. -/
theorem Machine.Exact.edge (h : m.Exact c content numbers) (lanes : m.Lanes) (lanes' : m'.Lanes)
    (was : (m.activity me).isAtEdge = true) (now : (m'.activity me).isAtEdge = true)
    (others : ∀ a, a ≠ me → m'.activity a = m.activity a) (core : m.shared.SameCore m'.shared) :
    m'.Exact c content numbers := by
  have hrests {a : Activity M} (ha : a.isAtEdge = true) : a.isSeeding = false := by
    by_contra hseeding
    have := Activity.holdsWrite_of_isSeeding (Bool.of_not_eq_false hseeding)
    rw [Activity.holdsWrite_of_isAtEdge ha] at this
    cases this
  refine h.still (Machine.count_of_edge lanes lanes' was now others core.generation)
    (Machine.settled_iff others core.seeded (hrests was) (hrests now)) (by rw [core.slot]) others
    (fun p g hp hg => ?_) fun model b hp => ?_
  · rw [hp] at now
    rw [Load.readGeneration?_of_isAtEdge now] at hg
    cases hg
  · rw [hp] at now
    cases now

/-- **Every step keeps the invariant**, as long as the slot is left to the cache and can be read when a save
asks for it, and the count does not begin again at zero. -/
theorem Machine.Exact.turn {l : Machine.Label σ M} (h : m.Exact c content numbers) (lanes : m.Lanes)
    (numbered : m.Numbered c) (hslot : c.slot.Lawful content) (turn : Turn c m m' l)
    (legible : m.Legible l) (hroom : ∀ g ∈ generations (m.deed? c l).toList, g ≠ 0) :
    m'.Exact c content (numbers ++ generations (m.deed? c l).toList) := by
  have lanes' := lanes.turn turn
  cases turn with
  | load me o p p' was now others step =>
    rw [Machine.deed?_of, was, show Activity.deed? c o m.shared.slot (.load p) = none from rfl]
    exact (List.append_nil numbers).symm ▸ h.load lanes lanes' hslot was now others step
  | save me o p p' was now others step =>
    rw [Machine.deed?_of, was] at hroom ⊢
    exact h.save lanes lanes' numbered hslot was now others step legible.of_label hroom
  | invalidate me o p p' was now others step =>
    rw [Machine.deed?_of, was, show Activity.deed? c o m.shared.slot (.invalidate p) =
      p.deed? c o m.shared.slot from rfl, generations_of_ne_saved fun _ _ _ =>
        Invalidation.deed?_ne_saved, List.append_nil]
    exact h.invalidate lanes lanes' hslot was now others step
  | begin i call last was eq =>
    subst eq
    obtain ⟨was, now⟩ := m.isAtEdge_begin was call
    exact (List.append_nil numbers).symm ▸ h.edge lanes lanes' was now
      (fun a ha => Machine.activity_move_of_ne m _ _ ha) (Shared.sameCore _ _ _ _ _)
  | edge me o was others core aside =>
    rw [Machine.deed?_of, Activity.deed?_of_isAtEdge was]
    exact (List.append_nil numbers).symm ▸ h.edge lanes lanes' was aside.isAtEdge others core
  | host holder same shared_eq =>
    refine (List.append_nil numbers).symm ▸ h.still ?_ ?_ ?_ (fun a (_ : a ≠ .writer) => by rw [same])
      (fun p g hp hg => .inl ⟨p, by rw [← hp, same], hg⟩) fun model b hp => ?_
    · rw [Machine.count, Machine.count, same, shared_eq]
    · rw [Machine.Settled, Machine.Settled, same, shared_eq]
    · rw [shared_eq]
    · exact h.seeds .writer model b (by rw [← hp, same])
  | stranger slot same shared_eq => exact legible.elim

end Invariant

/-! ### Whole runs -/

/-- The generations of the saves follow each other without a gap, and the count is exact. -/
structure Chronicle.Exact (c : Setup σ M) (content : σ → Option Bytes) (w : Chronicle σ M) : Prop
    extends w.Rising c where
  exact : w.machine.Exact c content (generations w.deeds)
  chain : (generations w.deeds).IsChain fun g g' => g' = g + 1

theorem Chronicle.exact_start (slot : σ) (holder : Holder M) (reports : Reports) :
    Chronicle.Exact c content ⟨.start slot holder reports, []⟩ where
  toRising := Chronicle.rising_start slot holder reports
  exact := by
    refine ⟨fun _ => ⟨rfl, rfl⟩, fun h => absurd h.1 (by simp [Machine.start]), fun _ h => (by cases h),
      fun a p g hp => ?_, fun a model b hp => ?_⟩
    all_goals cases a <;> cases hp
  chain := .nil

/-- **Every step keeps it**, as long as the slot is left to the cache and can be read when a save asks for
it, and the count does not begin again at zero. -/
theorem Chronicle.Exact.step {w v : Chronicle σ M} {l : Machine.Label σ M} (h : w.Exact c content)
    (hslot : c.slot.Lawful content) (legible : w.machine.Legible l) (hstep : w.step c l = some v)
    (hroom : ∀ g ∈ generations v.deeds, g ≠ 0) : v.Exact c content := by
  have hnew := Chronicle.generations_of_step h.lanes h.numbered hstep
  refine ⟨h.toRising.step hstep hroom, ?_, ?_⟩
  · obtain ⟨m, hm, rfl⟩ := Option.map_eq_some_iff.mp hstep
    rw [generations_append] at hroom ⊢
    exact h.exact.turn h.lanes h.numbered hslot (turn_of_step hm) legible
      fun g hg => hroom g (List.mem_append_right _ hg)
  · rcases hnew with ⟨hsame, -⟩ | ⟨hnew, -⟩
    · rw [hsame]
      exact h.chain
    · -- the last of them is the count
      rw [hnew, List.isChain_append]
      refine ⟨h.chain, .singleton _, fun g hg g' hg' => ?_⟩
      rw [List.head?_singleton, Option.mem_some_iff] at hg'
      rw [← hg', h.exact.last g hg]

/-- After a run that leaves the slot to the cache, and in which the slot can be read whenever a save asks for
it, the count is exact, unless it has begun again at zero. -/
theorem Chronicle.exact_of_run (hslot : c.slot.Lawful content) {slot : σ} {holder : Holder M}
    {reports : Reports} {ls : List (Machine.Label σ M)} {w : Chronicle σ M}
    (hrun : run (Chronicle.step c) ⟨.start slot holder reports, []⟩ ls = some w)
    (legible : Along (Chronicle.step c) (fun w l => w.machine.Legible l) ⟨.start slot holder reports, []⟩ ls)
    (hroom : ∀ g ∈ generations w.deeds, g ≠ 0) : w.Exact c content := by
  refine run_induction_along (P := fun w => (∀ g ∈ generations w.deeds, g ≠ 0) → w.Exact c content)
    hrun legible (fun _ => Chronicle.exact_start slot holder reports) (fun w l v hw hl hstep hv => ?_) hroom
  exact (hw fun g hg => hv g (Chronicle.generations_subset_of_step hstep hg)).step hslot hl hstep hv

/-- **Generations.** In every run, as long as the count does not begin again at zero, the generations of the
saves rise, in the order in which they fill the slot.  If the slot is left to the cache, and can be read
whenever a save asks for it, then each is next to the one before.  The count begins again at zero only if a
save comes after the highest generation that there is. -/
theorem generations_of_saves {slot : σ} {holder : Holder M} {reports : Reports}
    {ls : List (Machine.Label σ M)} {w : Chronicle σ M}
    (hrun : run (Chronicle.step c) ⟨.start slot holder reports, []⟩ ls = some w)
    (hroom : ∀ g ∈ generations w.deeds, g ≠ 0) :
    (generations w.deeds).Pairwise (· < ·) ∧
      ∀ content, c.slot.Lawful content →
        Along (Chronicle.step c) (fun w l => w.machine.Legible l) ⟨.start slot holder reports, []⟩ ls →
          (generations w.deeds).IsChain fun g g' => g' = g + 1 :=
  ⟨(Chronicle.rising_of_reachable ⟨ls, hrun⟩ hroom).rises,
    fun _ hslot legible => (Chronicle.exact_of_run hslot hrun legible hroom).chain⟩

/-- Three saves, of which the second one cannot fill the slot. -/
def threeSaves : List (Machine.Label MemorySlot Value) :=
  .call 0 .save :: List.replicate 11 (.caller 0 {}) ++
    .call 0 .save :: List.replicate 7 (.caller 0 { fault := some MemorySlot.refusal }) ++
      .call 0 .save :: List.replicate 10 (.caller 0 {})

/-- The save that fails leaves no gap. -/
theorem generations_of_saves_three :
    ∃ w, run (Chronicle.step textSetup) ⟨blankStart, []⟩ threeSaves = some w ∧
      generations w.deeds = [1, 2] ∧ (generations w.deeds).Pairwise (· < ·) ∧
        (generations w.deeds).IsChain fun g g' => g' = g + 1 := by
  obtain ⟨w, hrun, hgenerations⟩ : ∃ w,
      run (Chronicle.step textSetup) ⟨blankStart, []⟩ threeSaves = some w ∧
        generations w.deeds = [1, 2] := ⟨_, rfl, rfl⟩
  have hlegible : Along (Chronicle.step textSetup) (fun w l => w.machine.Legible l) ⟨blankStart, []⟩
      threeSaves := by
    iterate 31 refine along_cons (by trivial) rfl ?_
    trivial
  obtain ⟨hrises, hchain⟩ := generations_of_saves hrun (by simp [hgenerations])
  exact ⟨w, hrun, hgenerations, hrises, hchain _ (MemorySlot.lawful "memory") hlegible⟩

end SnapStore.Cache
