import SnapStore.Model.Value
import Mathlib.Order.Compare

namespace SnapStore.Value

/-!
# The order of map keys

A map lists its entries by ascending key, so that two maps with the same entries are one value.

* `compare_swap` — comparing the other way round gives the opposite answer.
* `compare_trans` — a value below a second one is below whatever is above that one.
* `ascending_insertEntry` — an entry that is put into a map comes where its key belongs.
* `insertEntry_of_forall_lt` — an entry whose key is above all others goes to the end.
* `mapOf_of_ascending` — inserting the entries of a map one after another gives that map.
-/

/-! ### Comparing the other way round -/

/-- Values of different shapes are ordered by their shapes. -/
theorem compare_of_ctorIdx_ne {a b : Value} (h : a.ctorIdx ≠ b.ctorIdx) :
    a.compare b = Ord.compare a.ctorIdx b.ctorIdx := by
  apply compare.eq_14 <;> (intros; subst_vars; exact h rfl)

mutual

/-- Comparing the other way round gives the opposite answer. -/
theorem compare_swap (a b : Value) : (a.compare b).swap = b.compare a := by
  by_cases h : a.ctorIdx = b.ctorIdx
  case neg =>
    -- different shapes: the order of the shapes decides
    rw [compare_of_ctorIdx_ne h, compare_of_ctorIdx_ne (Ne.symm h)]
    exact Std.OrientedCmp.eq_swap.symm
  match a, b with
  | .some a, .some b => simpa only [compare] using compare_swap a b
  | .seq a, .seq b => simpa only [compare] using compareAll_swap a b
  | .stream a, .stream b => simpa only [compare] using compareAll_swap a b
  | .map a, .map b => simpa only [compare] using compareEntries_swap a b
  | .tuple a, .tuple b => simpa only [compare] using compareAll_swap a b
  | .variant i a, .variant j b =>
    simp only [compare, Ordering.swap_then, compare_swap a b]
    rw [← Std.OrientedCmp.eq_swap]
  | .bool _, .bool _ | .nat _ _, .nat _ _ | .int _ _, .int _ _ | .float32 _, .float32 _
  | .float64 _, .float64 _ | .char _, .char _ | .string _, .string _ =>
    simp only [compare]
    exact Std.OrientedCmp.eq_swap.symm
  | .unit, .unit | .none, .none => rfl

theorem compareAll_swap (a b : List Value) : (compareAll a b).swap = compareAll b a := by
  match a, b with
  | [], [] | [], _ :: _ | _ :: _, [] => rfl
  | a :: as, b :: bs =>
    simp only [compareAll, Ordering.swap_then, compare_swap a b, compareAll_swap as bs]

theorem compareEntries_swap (a b : List (Value × Value)) :
    (compareEntries a b).swap = compareEntries b a := by
  match a, b with
  | [], [] | [], _ :: _ | _ :: _, [] => rfl
  | a :: as, b :: bs =>
    simp only [compareEntries, Ordering.swap_then, compareEntry_swap a b, compareEntries_swap as bs]

theorem compareEntry_swap (a b : Value × Value) : (compareEntry a b).swap = compareEntry b a := by
  match a, b with
  | (k, v), (l, w) => simp only [compareEntry, Ordering.swap_then, compare_swap k l, compare_swap v w]

end

theorem compare_eq_gt_iff {a b : Value} : a.compare b = .gt ↔ b.compare a = .lt := by
  rw [← compare_swap b a]
  cases b.compare a <;> simp

/-! ### Comparing along a chain -/

/-- What the outcomes `x` and `y` of comparing neighbours say about the outcome `z` of comparing the ends:
of two neighbours that are not descending, the first difference decides. -/
private def Leads (x y z : Ordering) : Prop := x.isLE → y.isLE → z = x.then y

private theorem Leads.then {x y z x' y' z' : Ordering} (h : Leads x y z) (h' : Leads x' y' z') :
    Leads (x.then x') (y.then y') (z.then z') := by
  intro hx hy
  rcases Ordering.isLE_then_iff_or.mp hx with rfl | ⟨rfl, hx'⟩
  · rcases Ordering.isLE_then_iff_or.mp hy with rfl | ⟨rfl, -⟩
    all_goals rw [h rfl rfl]; rfl
  · rcases Ordering.isLE_then_iff_or.mp hy with rfl | ⟨rfl, hy'⟩
    · rw [h rfl rfl]
      -- the first parts descend nowhere, and the second one of them decides
      cases x' with
      | lt | eq => rfl
      | gt => cases hx'
    · rw [h rfl rfl, h' hx' hy']
      rfl

private theorem leads_of_transCmp {α : Type} (cmp : α → α → Ordering) [Std.TransCmp cmp] (a b c : α) :
    Leads (cmp a b) (cmp b c) (cmp a c) := by
  intro hab hbc
  rcases Ordering.isLE_iff_eq_lt_or_eq_eq.mp hab with hab | hab
  · rcases Ordering.isLE_iff_eq_lt_or_eq_eq.mp hbc with hbc | hbc
    · rw [hab, hbc, Std.TransCmp.lt_trans hab hbc]; rfl
    · rw [hab, hbc, Std.TransCmp.lt_of_lt_of_eq hab hbc]; rfl
  · rcases Ordering.isLE_iff_eq_lt_or_eq_eq.mp hbc with hbc | hbc
    · rw [hab, hbc, Std.TransCmp.lt_of_eq_of_lt hab hbc]; rfl
    · rw [hab, hbc, Std.TransCmp.eq_trans hab hbc]; rfl

/-- Along values of more than one shape, the shapes decide. -/
private theorem leads_of_ctorIdx {a b c : Value} (h : a.ctorIdx = b.ctorIdx → b.ctorIdx ≠ c.ctorIdx) :
    Leads (a.compare b) (b.compare c) (a.compare c) := by
  have hshapes := leads_of_transCmp Ord.compare a.ctorIdx b.ctorIdx c.ctorIdx
  by_cases hab : a.ctorIdx = b.ctorIdx
  · have hbc := h hab
    have hac : a.ctorIdx ≠ c.ctorIdx := hab ▸ hbc
    rw [compare_of_ctorIdx_ne hbc, compare_of_ctorIdx_ne hac, hab]
    intro hx hy
    rcases Ordering.isLE_iff_eq_lt_or_eq_eq.mp hy with hy | hy
    · rcases Ordering.isLE_iff_eq_lt_or_eq_eq.mp hx with hx | hx
      all_goals rw [hx, hy]; rfl
    · exact absurd (Nat.compare_eq_eq.mp hy) hbc
  · rw [compare_of_ctorIdx_ne hab]
    by_cases hbc : b.ctorIdx = c.ctorIdx
    · have hac : a.ctorIdx ≠ c.ctorIdx := fun h => hab (h.trans hbc.symm)
      rw [compare_of_ctorIdx_ne hac, hbc]
      intro hx _
      rcases Ordering.isLE_iff_eq_lt_or_eq_eq.mp hx with hx | hx
      · rw [hx]; rfl
      · exact absurd (Nat.compare_eq_eq.mp hx) hac
    · rw [compare_of_ctorIdx_ne hbc]
      intro hx hy
      have hac : a.ctorIdx ≠ c.ctorIdx := by
        rw [Nat.isLE_compare] at hx hy
        omega
      rw [compare_of_ctorIdx_ne hac]
      exact hshapes hx hy

mutual

private theorem leads_compare (a b c : Value) : Leads (a.compare b) (b.compare c) (a.compare c) := by
  by_cases h : a.ctorIdx = b.ctorIdx ∧ b.ctorIdx = c.ctorIdx
  case neg => exact leads_of_ctorIdx fun hab hbc => h ⟨hab, hbc⟩
  obtain ⟨hab, hbc⟩ := h
  match a, b, c with
  | .some a, .some b, .some c => simpa only [compare] using leads_compare a b c
  | .seq a, .seq b, .seq c => simpa only [compare] using leads_compareAll a b c
  | .stream a, .stream b, .stream c => simpa only [compare] using leads_compareAll a b c
  | .map a, .map b, .map c => simpa only [compare] using leads_compareEntries a b c
  | .tuple a, .tuple b, .tuple c => simpa only [compare] using leads_compareAll a b c
  | .variant i a, .variant j b, .variant k c =>
    simp only [compare]
    exact (leads_of_transCmp Ord.compare i j k).then (leads_compare a b c)
  | .bool _, .bool _, .bool _ | .nat _ _, .nat _ _, .nat _ _ | .int _ _, .int _ _, .int _ _
  | .float32 _, .float32 _, .float32 _ | .float64 _, .float64 _, .float64 _
  | .char _, .char _, .char _ | .string _, .string _, .string _ =>
    simp only [compare]
    exact leads_of_transCmp Ord.compare _ _ _
  | .unit, .unit, .unit | .none, .none, .none => exact fun _ _ => rfl

private theorem leads_compareAll (a b c : List Value) :
    Leads (compareAll a b) (compareAll b c) (compareAll a c) := by
  match a, b, c with
  | [], [], [] | [], [], _ :: _ | [], _ :: _, _ :: _ => exact fun _ _ => rfl
  | _ :: _, [], _ => exact fun h _ => absurd h Bool.false_ne_true
  | _, _ :: _, [] => exact fun _ h => absurd h Bool.false_ne_true
  | a :: as, b :: bs, c :: cs =>
    simp only [compareAll]
    exact (leads_compare a b c).then (leads_compareAll as bs cs)

private theorem leads_compareEntries (a b c : List (Value × Value)) :
    Leads (compareEntries a b) (compareEntries b c) (compareEntries a c) := by
  match a, b, c with
  | [], [], [] | [], [], _ :: _ | [], _ :: _, _ :: _ => exact fun _ _ => rfl
  | _ :: _, [], _ => exact fun h _ => absurd h Bool.false_ne_true
  | _, _ :: _, [] => exact fun _ h => absurd h Bool.false_ne_true
  | a :: as, b :: bs, c :: cs =>
    simp only [compareEntries]
    exact (leads_compareEntry a b c).then (leads_compareEntries as bs cs)

private theorem leads_compareEntry (a b c : Value × Value) :
    Leads (compareEntry a b) (compareEntry b c) (compareEntry a c) := by
  match a, b, c with
  | (k, v), (l, w), (m, x) =>
    simp only [compareEntry]
    exact (leads_compare k l m).then (leads_compare v w x)

end

theorem compare_trans {a b c : Value} (hab : a.compare b = .lt) (hbc : b.compare c = .lt) :
    a.compare c = .lt := by
  rw [leads_compare a b c (by rw [hab]; rfl) (by rw [hbc]; rfl), hab]
  rfl

/-! ### Ascending entries -/

/-- The keys of the entries ascend, so that no key occurs twice. -/
def Ascending (es : List (Value × Value)) : Prop := es.Pairwise fun a b => a.1.compare b.1 = .lt

/-- What holds of a new entry and of all that are there holds of all that are there afterwards, also if the
new one gives its value to one of them. -/
theorem forall_mem_insertEntry {P : Value × Value → Prop} {k v : Value} {es : List (Value × Value)}
    (hnew : P (k, v)) (hreplace : ∀ l w, P (l, w) → P (l, v)) (hes : ∀ e ∈ es, P e) :
    ∀ e ∈ insertEntry k v es, P e := by
  induction es with
  | nil => simpa [insertEntry] using hnew
  | cons e es ih =>
    rw [List.forall_mem_cons] at hes
    unfold insertEntry
    split
    · simp only [List.forall_mem_cons]
      exact ⟨hnew, hes.1, hes.2⟩
    · simp only [List.forall_mem_cons]
      exact ⟨hreplace _ _ hes.1, hes.2⟩
    · simp only [List.forall_mem_cons]
      exact ⟨hes.1, ih hes.2⟩

/-- **Entries stay in order.** A new entry is put where its key belongs. -/
theorem ascending_insertEntry {k v : Value} {es : List (Value × Value)} (h : Ascending es) :
    Ascending (insertEntry k v es) := by
  induction es with
  | nil => exact List.pairwise_singleton _ _
  | cons e es ih =>
    obtain ⟨hhead, htail⟩ := List.pairwise_cons.mp h
    unfold insertEntry
    split
    · rename_i hlt
      refine List.pairwise_cons.mpr ⟨?_, h⟩
      intro e' he'
      rcases List.mem_cons.mp he' with rfl | he'
      · exact hlt
      · exact compare_trans hlt (hhead e' he')
    · exact List.pairwise_cons.mpr ⟨hhead, htail⟩
    · rename_i hgt
      refine List.pairwise_cons.mpr ⟨?_, ih htail⟩
      exact forall_mem_insertEntry (compare_eq_gt_iff.mp hgt) (fun _ _ h => h) hhead

/-- An entry whose key is above all others goes to the end. -/
theorem insertEntry_of_forall_lt {k v : Value} {es : List (Value × Value)}
    (h : ∀ e ∈ es, e.1.compare k = .lt) : insertEntry k v es = es ++ [(k, v)] := by
  induction es with
  | nil => rfl
  | cons e es ih =>
    have he : k.compare e.1 = .gt := compare_eq_gt_iff.mpr (h e (by simp))
    have hes := ih fun e' he' => h e' (by simp [he'])
    simp only [insertEntry, he, hes, List.cons_append]

private theorem foldl_insertEntry {es fs : List (Value × Value)}
    (h : (es ++ fs).Pairwise fun a b => a.1.compare b.1 = .lt) :
    fs.foldl (fun es (k, v) => insertEntry k v es) es = es ++ fs := by
  induction fs generalizing es with
  | nil => simp
  | cons f fs ih =>
    -- `f` is above all of `es`, so that the next step starts from `es ++ [f]`.
    have hf : ∀ e ∈ es, e.1.compare f.1 = .lt := by
      intro e he
      exact (List.pairwise_append.mp h).2.2 e he f (by simp)
    have hstep : insertEntry f.1 f.2 es = es ++ [f] := insertEntry_of_forall_lt hf
    show fs.foldl _ (insertEntry f.1 f.2 es) = _
    rw [hstep, ih (by simpa using h)]
    simp

/-- **Maps are rebuilt.** Inserting the entries of a map one after another gives that map. -/
theorem mapOf_of_ascending {es : List (Value × Value)}
    (h : es.Pairwise fun a b => a.1.compare b.1 = .lt) : mapOf es = .map es := by
  rw [mapOf, foldl_insertEntry (by simpa using h), List.nil_append]

end SnapStore.Value
