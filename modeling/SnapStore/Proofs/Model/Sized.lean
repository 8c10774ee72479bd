import SnapStore.Model.Encode
import SnapStore.Model.Schema

namespace SnapStore

/-!
# Model types whose values always have a binary form

Only a sequence of unknown length has no binary form, so that a type without such sequences can always
be written.

* `Layout.isSized` — no part of a type is a sequence of unknown length.
* `Layout.exists_encode` — then every value of the type has a binary form.
-/

namespace Schema

mutual

/-- Whether no part of a shape is a sequence of unknown length. -/
def isSized : Schema → Bool
  | .stream _ => false
  | .option item => item.isSized
  | .seq item => item.isSized
  | .map key value => key.isSized && value.isSized
  | .tuple fields => allSized fields
  | .union alternatives => allSized alternatives
  | _ => true
termination_by structural s => s

/-- Whether all shapes of a list are like that. -/
def allSized : List Schema → Bool
  | [] => true
  | s :: ss => s.isSized && allSized ss
termination_by structural ss => ss

end

theorem isSized_of_mem {ss : List Schema} (h : allSized ss = true) {s : Schema} (hs : s ∈ ss) :
    s.isSized = true := by
  induction ss with
  | nil => cases hs
  | cons t ss ih =>
    rw [allSized, Bool.and_eq_true] at h
    rcases List.mem_cons.mp hs with rfl | hs
    · exact h.1
    · exact ih h.2 hs

end Schema

namespace Value

theorem exists_encodeAll {vs : List Value} (h : ∀ v ∈ vs, ∃ b, v.encode = .ok b) :
    ∃ b, encodeAll vs = .ok b := by
  induction vs with
  | nil => exact ⟨[], rfl⟩
  | cons v vs ih =>
    obtain ⟨b, hb⟩ := h v List.mem_cons_self
    obtain ⟨c, hc⟩ := ih fun w hw => h w (List.mem_cons_of_mem v hw)
    exact ⟨b ++ c, by simp only [encodeAll, hb, hc, bind, Except.bind, pure, Except.pure]⟩

theorem exists_encodeEntries {es : List (Value × Value)} (keys : ∀ e ∈ es, ∃ b, e.1.encode = .ok b)
    (values : ∀ e ∈ es, ∃ b, e.2.encode = .ok b) : ∃ b, encodeEntries es = .ok b := by
  induction es with
  | nil => exact ⟨[], rfl⟩
  | cons e es ih =>
    obtain ⟨b, hb⟩ := keys e List.mem_cons_self
    obtain ⟨c, hc⟩ := values e List.mem_cons_self
    obtain ⟨d, hd⟩ := ih (fun f hf => keys f (List.mem_cons_of_mem e hf))
      (fun f hf => values f (List.mem_cons_of_mem e hf))
    have he : encodeEntry e = .ok (b ++ c) := by
      obtain ⟨k, v⟩ := e
      simp only [encodeEntry, hb, hc, bind, Except.bind, pure, Except.pure]
    exact ⟨b ++ c ++ d, by simp only [encodeEntries, he, hd, bind, Except.bind, pure, Except.pure]⟩

end Value

/-- A value of a shape has a binary form if no part of the shape, or of a definition, is a sequence of
unknown length. -/
theorem Schema.Admits.exists_encode {defs : List Schema} (hdefs : allSized defs = true) {s : Schema}
    {v : Value} (h : Admits defs s v) (hs : s.isSized = true) : ∃ b, v.encode = .ok b := by
  -- along the value: a reference to a definition goes on with a value of that definition
  induction h with
  | unit | bool | float32 | float64 | char | string | none | emptyTuple => exact ⟨_, rfl⟩
  | @nat w _ _ | @int w _ _ _ => cases w <;> exact ⟨_, rfl⟩
  | some _ item =>
    obtain ⟨b, hb⟩ := item hs
    exact ⟨1 :: b, by simp only [Value.encode, hb, bind, Except.bind, pure, Except.pure]⟩
  | @seq _ vs _ _ items =>
    obtain ⟨b, hb⟩ := Value.exists_encodeAll fun v hv => items v hv hs
    exact ⟨Varint.encode vs.length ++ b, by
      simp only [Value.encode, hb, bind, Except.bind, pure, Except.pure]⟩
  | stream =>
    -- the only shape that cannot be written
    cases hs
  | @map _ _ es _ _ _ _ keys values =>
    rw [isSized, Bool.and_eq_true] at hs
    obtain ⟨b, hb⟩ := Value.exists_encodeEntries (fun e he => keys e he hs.1)
      fun e he => values e he hs.2
    exact ⟨Varint.encode es.length ++ b, by
      simp only [Value.encode, hb, bind, Except.bind, pure, Except.pure]⟩
  | consTuple _ _ head tail =>
    rw [isSized, allSized, Bool.and_eq_true] at hs
    obtain ⟨b, hb⟩ := head hs.1
    obtain ⟨c, hc⟩ := tail hs.2
    rw [Value.encode] at hc
    exact ⟨b ++ c, by
      simp only [Value.encode, Value.encodeAll, hb, hc, bind, Except.bind, pure, Except.pure]⟩
  | @variant _ i _ _ _ at_index _ payload =>
    obtain ⟨b, hb⟩ := payload (isSized_of_mem hs (List.mem_of_getElem? at_index))
    exact ⟨Varint.encode i ++ b, by
      simp only [Value.encode, hb, bind, Except.bind, pure, Except.pure]⟩
  | ref at_index _ target => exact target (isSized_of_mem hdefs (List.mem_of_getElem? at_index))

namespace Layout

/-- Whether no part of a model type is a sequence of unknown length. -/
def isSized (l : Layout) : Bool := l.root.isSized && Schema.allSized l.defs

/-- **Sized types can be written.** Every value of such a type has a binary form. -/
theorem exists_encode {l : Layout} (hl : l.isSized = true) {v : Value} (h : l.Admits v) :
    ∃ b, v.encode = .ok b := by
  rw [isSized, Bool.and_eq_true] at hl
  exact Schema.Admits.exists_encode hl.2 h hl.1

end Layout

end SnapStore
