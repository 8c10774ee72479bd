import SnapStore.Proofs.Cache.Chronicle
import SnapStore.Proofs.Cache.Lanes

namespace SnapStore.Cache

/-!
# Memory and storage agree

A cold load reads the slot first and puts the snapshot into memory much later, while others save.
Nevertheless the snapshot in memory is always the one that the slot holds, except while a save or an
invalidation is about to change the one after the other.

* `Machine.Coherent` — this, and what threads know; every step keeps it, as `Machine.Coherent.turn` says.
* `Chronicle.Agrees` — moreover, the slot holds what the last deed has left.
-/

variable {σ M : Type}

/-! ### The invariant -/

/-- A step of a cache that has its slot for itself and is given valid models. -/
def Machine.Label.Owned (valid : M → Prop) : Machine.Label σ M → Prop
  | .host h => ∀ model, h.current = some model → valid model
  | .stranger _ => False
  | _ => True

/-- The snapshot in memory is the one that the slot holds, unless a thread is about to change the one
after the other; and what threads know is true, or of no use any more. -/
structure Machine.Coherent (c : Setup σ M) (content : σ → Option Bytes) (valid : M → Prop)
    (m : Machine σ M) : Prop where
  holder : ∀ model, m.shared.holder.current = some model → valid model
  saves : ∀ a p, m.activity a = .save p → p.Knows c valid (content m.shared.slot)
  /-- Once a save has changed the slot there is a snapshot in memory that a load does not replace. -/
  loads : ∀ a p, m.activity a = .load p → p.Knows c (content m.shared.slot) ∨
    m.shared.current.isSome = true ∨ ∃ b, (m.activity b).isCommitting = true
  memory : ∀ model, m.shared.current = some model → Decodes c (content m.shared.slot) model ∨
    ∃ a, (m.activity a).isChanging = true

theorem Activity.isChanging_of_isCommitting {a : Activity M} (h : a.isCommitting = true) :
    a.isChanging = true := by
  cases a with
  | save p => exact h
  | _ => cases h

theorem Activity.holdsWrite_of_isChanging {a : Activity M} (h : a.isChanging = true) :
    a.holdsWrite = true := by
  cases a with
  | rest | load => cases h
  | save p => cases p <;> first | rfl | cases h
  | invalidate p => cases p <;> first | rfl | cases h

theorem Load.knows_of_holdsLoad {c : Setup σ M} {blob : Option Bytes} {p : Load M}
    (h : p.holdsLoad = false) : p.Knows c blob := by
  cases p <;> trivial

/-- What a save knows that does not commit has nothing to do with the slot. -/
theorem Save.Knows.of_content {c : Setup σ M} {valid : M → Prop} {blob blob' : Option Bytes} {p : Save M}
    (h : p.Knows c valid blob) (hp : p.isCommitting = false) : p.Knows c valid blob' := by
  cases p <;> first | exact h | cases hp

section Invariant

variable {c : Setup σ M} {content : σ → Option Bytes} {valid : M → Prop} {m m' : Machine σ M}
  {me : Actor} {o : Outside}

/-- A step after which the slot and the snapshot in memory are the same keeps the invariant, if the thread
that takes it knows what it should and is still about to change what it was about to change. -/
theorem Machine.Coherent.still (h : m.Coherent c content valid)
    (holder : ∀ model, m'.shared.holder.current = some model → valid model)
    (slot : content m'.shared.slot = content m.shared.slot)
    (current : m'.shared.current = m.shared.current)
    (others : ∀ a, a ≠ me → m'.activity a = m.activity a)
    (saves : ∀ p, m'.activity me = .save p → p.Knows c valid (content m.shared.slot))
    (loads : ∀ p, m'.activity me = .load p → p.Knows c (content m.shared.slot) ∨
      m.shared.current.isSome = true ∨ ∃ b, (m.activity b).isCommitting = true)
    (committing : (m.activity me).isCommitting = true → (m'.activity me).isCommitting = true)
    (changing : (m.activity me).isChanging = true → (m'.activity me).isChanging = true) :
    m'.Coherent c content valid := by
  -- whoever is about to change the snapshot in memory still is, be it this thread or another one
  have hcommitting : (∃ b, (m.activity b).isCommitting = true) →
      ∃ b, (m'.activity b).isCommitting = true := by
    rintro ⟨b, hb⟩
    by_cases hme : b = me
    · exact ⟨me, committing (by rw [← hme]; exact hb)⟩
    · exact ⟨b, by rw [others b hme]; exact hb⟩
  have hchanging : (∃ b, (m.activity b).isChanging = true) →
      ∃ b, (m'.activity b).isChanging = true := by
    rintro ⟨b, hb⟩
    by_cases hme : b = me
    · exact ⟨me, changing (by rw [← hme]; exact hb)⟩
    · exact ⟨b, by rw [others b hme]; exact hb⟩
  refine ⟨holder, fun a q hq => ?_, fun a q hq => ?_, fun model hmodel => ?_⟩
  · rw [slot]
    by_cases hme : a = me
    · exact saves q (by rw [← hme]; exact hq)
    · exact h.saves a q (by rw [← others a hme]; exact hq)
  · rw [slot, current]
    have hq' : q.Knows c (content m.shared.slot) ∨ m.shared.current.isSome = true ∨
        ∃ b, (m.activity b).isCommitting = true := by
      by_cases hme : a = me
      · exact loads q (by rw [← hme]; exact hq)
      · exact h.loads a q (by rw [← others a hme]; exact hq)
    exact hq'.imp_right fun hk => hk.imp_right hcommitting
  · rw [current] at hmodel
    rw [slot]
    exact (h.memory model hmodel).imp_right hchanging

/-- A load keeps the invariant: what it publishes is what the slot holds, or is not needed. -/
theorem Machine.Coherent.load (h : m.Coherent c content valid) (lanes : m.Lanes)
    (hslot : c.slot.Lawful content) {p p' : Load M} (was : m.activity me = .load p)
    (now : m'.activity me = .load p') (others : ∀ a, a ≠ me → m'.activity a = m.activity a)
    (step : p.step c me o m.shared = some (p', m'.shared)) : m'.Coherent c content valid := by
  obtain ⟨hs, hholder, hknows, hcurrent⟩ := Load.effect hslot step
  have hsame : m'.shared.current = m.shared.current → m'.Coherent c content valid := by
    intro hcurrent
    refine h.still (by rw [hholder]; exact h.holder) (by rw [hs]) hcurrent others
      (fun q hq => by rw [now] at hq; cases hq) (fun q hq => ?_)
      (fun hm => by rw [was] at hm; cases hm) (fun hm => by rw [was] at hm; cases hm)
    rw [now, Activity.load.injEq] at hq
    subst hq
    exact (h.loads me p was).imp_left fun hk => by rw [← hs]; exact hknows hk
  rcases hcurrent with hcurrent | ⟨header, loaded, rfl, hcurrent⟩
  · exact hsame hcurrent
  · cases hcur : m.shared.current with
    | some kept => exact hsame (by rw [hcurrent, hcur, Option.getD_some])
    | none =>
      rw [hcur, Option.getD_none] at hcurrent
      -- nobody has saved since the blob was read, for there is no snapshot in memory
      have hdecodes : Decodes c (content m.shared.slot) loaded := by
        rcases h.loads me _ was with hk | hk | ⟨b, hb⟩
        · exact hk
        · rw [hcur] at hk
          cases hk
        · have hwrite := Activity.holdsWrite_of_isChanging (Activity.isChanging_of_isCommitting hb)
          have hb' : b = me := lanes.write.unique hwrite (by rw [was]; rfl)
          rw [hb', was] at hb
          cases hb
      refine ⟨by rw [hholder]; exact h.holder, fun a q hq => ?_,
        fun _ _ _ => .inr (.inl (by rw [hcurrent]; rfl)), fun model hmodel => ?_⟩
      · rw [hs]
        by_cases hme : a = me
        · rw [hme, now] at hq
          cases hq
        · exact h.saves a q (by rw [← others a hme]; exact hq)
      · rw [hcurrent, Option.some.injEq] at hmodel
        rw [hs, ← hmodel]
        exact .inl hdecodes

/-- A save keeps the invariant: it publishes what it has written. -/
theorem Machine.Coherent.save (h : m.Coherent c content valid) (lanes : m.Lanes)
    (hslot : c.slot.Lawful content) (hcodec : c.codec.Faithful valid) {p p' : Save M}
    (was : m.activity me = .save p) (now : m'.activity me = .save p')
    (others : ∀ a, a ≠ me → m'.activity a = m.activity a)
    (step : p.step c me o m.shared = some (p', m'.shared)) : m'.Coherent c content valid := by
  obtain ⟨hholder, hknows, heffect⟩ := Save.effect hslot hcodec h.holder step (h.saves me p was)
  have hholder' : ∀ model, m'.shared.holder.current = some model → valid model := by
    rw [hholder]
    exact h.holder
  rcases heffect with ⟨hs, hcurrent, -, hstays⟩ | ⟨_, _, _, -, -, hs, hcurrent, hwrite, hcommits⟩ |
    ⟨model, hs, hcurrent, -, hdecodes⟩
  · refine h.still hholder' hs hcurrent others (fun q hq => ?_)
      (fun q hq => by rw [now] at hq; cases hq) ?_ ?_
    · rw [now, Activity.save.injEq] at hq
      rw [← hq, ← hs]
      exact hknows
    all_goals
      rw [was, now]
      exact hstays
  · -- the blob has been written, and the snapshot in memory is about to follow
    have hme : (m'.activity me).isCommitting = true := by
      rw [now]
      exact hcommits
    refine ⟨hholder', fun a q hq => ?_, fun _ _ _ => .inr (.inr ⟨me, hme⟩), fun _ _ =>
      .inr ⟨me, Activity.isChanging_of_isCommitting hme⟩⟩
    by_cases hne : a = me
    · rw [hne, now, Activity.save.injEq] at hq
      rw [← hq]
      exact hknows
    · rw [others a hne] at hq
      refine (h.saves a q hq).of_content ?_
      -- otherwise two threads would have the write lane
      by_contra hq'
      have ha : (m.activity a).holdsWrite = true := by
        apply Activity.holdsWrite_of_isChanging
        rw [hq]
        exact Bool.of_not_eq_false hq'
      exact hne (lanes.write.unique ha (by rw [was]; exact hwrite))
  · -- the model is published
    refine ⟨hholder', fun a q hq => ?_, fun _ _ _ => .inr (.inl (by rw [hcurrent]; rfl)),
      fun other hmodel => ?_⟩
    · by_cases hme : a = me
      · rw [hme, now, Activity.save.injEq] at hq
        rw [← hq]
        exact hknows
      · rw [hs]
        exact h.saves a q (by rw [← others a hme]; exact hq)
    · rw [hcurrent, Option.some.injEq] at hmodel
      rw [← hmodel]
      exact .inl hdecodes

/-- While an invalidation has both lanes in hand, nobody else knows anything about the slot. -/
theorem Machine.Coherent.blank (h : m.Coherent c content valid) (lanes : m.Lanes) {p : Invalidation}
    (was : m.activity me = .invalidate p) (hload : p.holdsLoad = true) (hwrite : p.holdsWrite = true)
    {a : Actor} (hne : a ≠ me) (blob : Option Bytes) :
    (∀ q, m.activity a = .save q → q.Knows c valid blob) ∧
      ∀ q, m.activity a = .load q → q.Knows c blob := by
  refine ⟨fun q hq => (h.saves a q hq).of_content ?_, fun q hq => Load.knows_of_holdsLoad ?_⟩
  · by_contra hq'
    have ha : (m.activity a).holdsWrite = true := by
      apply Activity.holdsWrite_of_isChanging
      rw [hq]
      exact Bool.of_not_eq_false hq'
    exact hne (lanes.write.unique ha (by rw [was]; exact hwrite))
  · by_contra hq'
    have ha : (m.activity a).holdsLoad = true := by
      rw [hq]
      exact Bool.of_not_eq_false hq'
    exact hne (lanes.load.unique ha (by rw [was]; exact hload))

/-- An invalidation keeps the invariant: it forgets the snapshot of the blob that it has removed. -/
theorem Machine.Coherent.invalidate (h : m.Coherent c content valid) (lanes : m.Lanes)
    (hslot : c.slot.Lawful content) {p p' : Invalidation} (was : m.activity me = .invalidate p)
    (now : m'.activity me = .invalidate p') (others : ∀ a, a ≠ me → m'.activity a = m.activity a)
    (step : p.step c me o m.shared = some (p', m'.shared)) : m'.Coherent c content valid := by
  obtain ⟨hholder, heffect⟩ := Invalidation.effect hslot step
  have hholder' : ∀ model, m'.shared.holder.current = some model → valid model := by
    rw [hholder]
    exact h.holder
  -- with both lanes in hand, it may change what nobody else looks at
  have hblank (hload : p.holdsLoad = true) (hwrite : p.holdsWrite = true)
      (memory : ∀ model, m'.shared.current = some model →
        Decodes c (content m'.shared.slot) model ∨ ∃ a, (m'.activity a).isChanging = true) :
      m'.Coherent c content valid := by
    refine ⟨hholder', fun a q hq => ?_, fun a q hq => .inl ?_, memory⟩
    all_goals
      by_cases hme : a = me
      · rw [hme, now] at hq
        cases hq
      · rw [others a hme] at hq
        have hothers := h.blank lanes was hload hwrite hme (content m'.shared.slot)
        first | exact hothers.1 q hq | exact hothers.2 q hq
  rcases heffect with ⟨hs, hcurrent, -, hp⟩ | ⟨-, -, -, rfl, rfl⟩ | ⟨-, hcurrent, -, rfl⟩
  · refine h.still hholder' hs hcurrent others (fun q hq => by rw [now] at hq; cases hq)
      (fun q hq => by rw [now] at hq; cases hq) (fun hm => by rw [was] at hm; cases hm) fun hm => ?_
    rw [was] at hm
    cases p with
    | forget => exact absurd rfl hp
    | _ => cases hm
  · exact hblank rfl rfl fun _ _ => .inr ⟨me, by rw [now]; rfl⟩
  · refine hblank rfl rfl fun model hmodel => ?_
    rw [hcurrent] at hmodel
    cases hmodel

/-- Steps outside the lanes keep the invariant. -/
theorem Machine.Coherent.edge (h : m.Coherent c content valid)
    (was : (m.activity me).isAtEdge = true) (now : (m'.activity me).isAtEdge = true)
    (others : ∀ a, a ≠ me → m'.activity a = m.activity a) (core : m.shared.SameCore m'.shared) :
    m'.Coherent c content valid := by
  refine h.still (by rw [core.holder]; exact h.holder) (by rw [core.slot]) core.current others
    (fun q hq => ?_) (fun q hq => .inl ?_) ?_ ?_
  -- a save or a load that has not begun knows nothing, and one that has ended need not
  · rw [hq] at now
    cases q <;> trivial
  · rw [hq] at now
    cases q <;> trivial
  -- a thread that is about to change something has the write lane in hand
  · intro hm
    have hwrite := Activity.holdsWrite_of_isChanging (Activity.isChanging_of_isCommitting hm)
    rw [Activity.holdsWrite_of_isAtEdge was] at hwrite
    cases hwrite
  · intro hm
    have hwrite := Activity.holdsWrite_of_isChanging hm
    rw [Activity.holdsWrite_of_isAtEdge was] at hwrite
    cases hwrite

/-- What a step does to the slot is what enters the chronicle. -/
theorem Turn.content_eq {l : Machine.Label σ M} (turn : Turn c m m' l)
    (h : m.Coherent c content valid) (hslot : c.slot.Lawful content) (hcodec : c.codec.Faithful valid)
    (hl : l.Owned valid) :
    content m'.shared.slot = leftBy (content m.shared.slot) (m.deed? c l).toList ∧
      ∀ model header blob, m.deed? c l = some (.saved model header blob) →
        Snapshot.decode c.codec c.modelVersion blob = .ok (header, model) := by
  cases turn with
  | load me o p p' was now others step =>
    obtain ⟨hs, -⟩ := Load.effect hslot step
    rw [Machine.deed?_of, was, hs]
    exact ⟨rfl, fun _ _ _ hd => by cases hd⟩
  | save me o p p' was now others step =>
    rw [Machine.deed?_of, was]
    obtain ⟨-, -, ⟨hs, -, hd, -⟩ | ⟨model, header, blob, hd, hdecode, hs, -⟩ | ⟨_, hs, -, hd, -⟩⟩ :=
      Save.effect hslot hcodec h.holder step (h.saves me p was)
    · rw [hs, show Activity.deed? c o m.shared.slot (.save p) = none from hd]
      exact ⟨rfl, fun _ _ _ hd => by cases hd⟩
    · rw [hs, show Activity.deed? c o m.shared.slot (.save p) = some (.saved model header blob) from hd]
      refine ⟨rfl, ?_⟩
      intro _ _ _ hd
      cases hd
      exact hdecode
    · rw [hs, show Activity.deed? c o m.shared.slot (.save p) = none from hd]
      exact ⟨rfl, fun _ _ _ hd => by cases hd⟩
  | invalidate me o p p' was now others step =>
    rw [Machine.deed?_of, was]
    obtain ⟨-, ⟨hs, -, hd, -⟩ | ⟨hs, -, hd, -⟩ | ⟨hs, -, hd, -⟩⟩ := Invalidation.effect hslot step
    · rw [hs, show Activity.deed? c o m.shared.slot (.invalidate p) = none from hd]
      exact ⟨rfl, fun _ _ _ hd => by cases hd⟩
    · rw [hs, show Activity.deed? c o m.shared.slot (.invalidate p) = some .removed from hd]
      exact ⟨rfl, fun _ _ _ hd => by cases hd⟩
    · rw [hs, show Activity.deed? c o m.shared.slot (.invalidate p) = none from hd]
      exact ⟨rfl, fun _ _ _ hd => by cases hd⟩
  | begin i call last was eq =>
    subst eq
    exact ⟨rfl, fun _ _ _ hd => by cases hd⟩
  | edge me o was others core aside =>
    rw [Machine.deed?_of, Activity.deed?_of_isAtEdge was, core.slot]
    exact ⟨rfl, fun _ _ _ hd => by cases hd⟩
  | host holder same shared_eq =>
    rw [shared_eq]
    exact ⟨rfl, fun _ _ _ hd => by cases hd⟩
  | stranger slot same shared_eq => exact hl.elim

/-- **Every step keeps the invariant**, as long as the slot is left to the cache. -/
theorem Machine.Coherent.turn {l : Machine.Label σ M} (h : m.Coherent c content valid) (lanes : m.Lanes)
    (hslot : c.slot.Lawful content) (hcodec : c.codec.Faithful valid) (hl : l.Owned valid)
    (turn : Turn c m m' l) : m'.Coherent c content valid := by
  cases turn with
  | load me o p p' was now others step => exact h.load lanes hslot was now others step
  | save me o p p' was now others step => exact h.save lanes hslot hcodec was now others step
  | invalidate me o p p' was now others step => exact h.invalidate lanes hslot was now others step
  | begin i call last was eq =>
    subst eq
    refine h.edge ?_ ?_ (fun _ ha => Machine.activity_move_of_ne m _ _ ha) (Shared.sameCore _ _ _ _ _)
    · simp only [Machine.activity, was]
      rfl
    · rw [Machine.activity_move_self]
      cases call <;> rfl
  | edge me o was others core aside => exact h.edge was aside.isAtEdge others core
  | host holder same shared_eq =>
    refine ⟨?_, ?_, ?_, ?_⟩ <;> rw [shared_eq]
    · exact hl
    · rw [same]
      exact h.saves
    · rw [same]
      exact h.loads
    · rw [same]
      exact h.memory
  | stranger slot same shared_eq => exact hl.elim

end Invariant

/-! ### Whole runs -/

/-- What is known of a cache and of what has been done to its slot. -/
structure Chronicle.Agrees (c : Setup σ M) (content : σ → Option Bytes) (valid : M → Prop)
    (initial : Option Bytes) (w : Chronicle σ M) : Prop where
  lanes : w.machine.Lanes
  coherent : w.machine.Coherent c content valid
  left : content w.machine.shared.slot = leftBy initial w.deeds
  genuine : ∀ model header blob, .saved model header blob ∈ w.deeds →
    Snapshot.decode c.codec c.modelVersion blob = .ok (header, model)

theorem leftBy_append (initial : Option Bytes) (ds es : List (Deed M)) :
    leftBy initial (ds ++ es) = leftBy (leftBy initial ds) es := by
  unfold leftBy
  rw [List.getLast?_append]
  cases es.getLast? <;> rfl

section Run

variable {c : Setup σ M} {content : σ → Option Bytes} {valid : M → Prop} {initial : Option Bytes}

theorem Chronicle.agrees_start {slot : σ} {holder : Holder M} (reports : Reports)
    (hvalid : ∀ model, holder.current = some model → valid model) :
    Chronicle.Agrees c content valid (content slot) ⟨.start slot holder reports, []⟩ where
  lanes := Machine.lanes_start slot holder reports
  coherent := by
    refine ⟨hvalid, fun a p hp => ?_, fun a p hp => ?_, fun _ h => by cases h⟩
    all_goals cases a <;> cases hp
  left := rfl
  genuine _ _ _ h := by cases h

theorem Chronicle.Agrees.step {w v : Chronicle σ M} (h : w.Agrees c content valid initial)
    (hslot : c.slot.Lawful content) (hcodec : c.codec.Faithful valid) {l : Machine.Label σ M}
    (hl : l.Owned valid) (hstep : w.step c l = some v) : v.Agrees c content valid initial := by
  obtain ⟨m, hm, rfl⟩ := Option.map_eq_some_iff.mp hstep
  have turn := turn_of_step hm
  obtain ⟨hcontent, hgenuine⟩ := turn.content_eq h.coherent hslot hcodec hl
  refine ⟨h.lanes.turn turn, h.coherent.turn h.lanes hslot hcodec hl turn, ?_, ?_⟩
  · -- the slot holds what this step has left, or else what the steps before it have left
    rw [hcontent, h.left, ← leftBy_append]
  · intro model header blob hmem
    rcases List.mem_append.mp hmem with hmem | hmem
    · exact h.genuine model header blob hmem
    · exact hgenuine model header blob (Option.mem_toList.mp hmem)

end Run

end SnapStore.Cache
