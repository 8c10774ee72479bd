namespace SnapStore

/-!
# Model holders

A holder has the model that a host works with.  A model is never changed in place: an edit makes a
new one, and whoever still has the old one keeps it.

* `Holder.replace`, `Holder.update` and `Holder.clear` are what a caller sees of one call that nothing
  interrupts.
* The revision counts replacements and edits, modulo `2 ^ 64`; clearing leaves it alone.
-/

/-- The model that a host works with, if it has one. -/
structure Holder (M : Type) where
  current : Option M := none
  revision : UInt64 := 0
  deriving Repr

namespace Holder

variable {M : Type}

/-- A holder of a first model. -/
def ofModel (model : M) : Holder M := ⟨some model, 1⟩

/-- Installs a model and returns its revision. -/
def replace (h : Holder M) (model : M) : UInt64 × Holder M :=
  (h.revision + 1, ⟨some model, h.revision + 1⟩)

/-- Installs an edited copy of the model and returns its revision, if there is a model. -/
def update (h : Holder M) (edit : M → M) : Option UInt64 × Holder M :=
  match h.current with
  | some model => (some (h.revision + 1), ⟨some (edit model), h.revision + 1⟩)
  | none => (none, h)

/-- Forgets the model. -/
def clear (h : Holder M) : Holder M := { h with current := none }

end Holder

end SnapStore
