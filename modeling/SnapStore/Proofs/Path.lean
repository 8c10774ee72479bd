import SnapStore.Slot.File
import Mathlib.Data.List.Basic

namespace SnapStore

/-!
# The parts of a path

* `Path.splitSlashes_joinSlashes` and `Path.joinSlashes_splitSlashes` — splitting and joining undo each
  other.
* `Path.parts` are the parts between the slashes of a path.
* `Path.IsAncestor` — one path comes from another one by taking parents.
* `Path.IsName` — some bytes name an entry of a directory; `Path.components_join_name` says that behind a
  path it is one more component.
* `FileSlot.exists_parts_parentDir` — the directory of a file is written with the parts in front of its
  name, up to parts that mean nothing.
-/

namespace Path

/-! ### Splitting and joining -/

theorem splitSlashes_eq_splitOn (cs : Bytes) : splitSlashes cs = cs.splitOn slash := by
  induction cs with
  | nil => rfl
  | cons c cs ih =>
    rw [List.splitOn] at ih ⊢
    rw [List.splitOnP_cons_eq_if_modifyHead, splitSlashes, ih]
    by_cases hc : c = slash
    · simp [hc]
    · cases hs : List.splitOnP (fun x => x == slash) cs with
      | nil => exact absurd hs (List.splitOnP_ne_nil _ _)
      | cons part parts => simp [hc]

theorem splitSlashes_ne_nil (cs : Bytes) : splitSlashes cs ≠ [] := by
  rw [splitSlashes_eq_splitOn]
  exact List.splitOnP_ne_nil _ _

theorem joinSlashes_splitSlashes (cs : Bytes) : joinSlashes (splitSlashes cs) = cs := by
  rw [splitSlashes_eq_splitOn, joinSlashes, List.intercalate_splitOn]

theorem splitSlashes_joinSlashes {parts : List Bytes} (hslash : ∀ part ∈ parts, slash ∉ part)
    (hne : parts ≠ []) : splitSlashes (joinSlashes parts) = parts := by
  rw [splitSlashes_eq_splitOn, joinSlashes, List.splitOn_intercalate slash hslash hne]

/-- No part has a slash in it. -/
theorem not_mem_of_mem_splitSlashes {cs part : Bytes} (h : part ∈ splitSlashes cs) : slash ∉ part := by
  induction cs generalizing part with
  | nil =>
    simp only [splitSlashes, List.mem_singleton] at h
    simp [h]
  | cons c cs ih =>
    rw [splitSlashes] at h
    split at h
    · rcases List.mem_cons.mp h with rfl | h
      · simp
      · exact ih h
    · rename_i hc
      split at h <;> rename_i hs
      · rcases List.mem_cons.mp h with rfl | h
        · have hpart := ih (by rw [hs]; exact List.mem_cons_self)
          simp [hpart, Ne.symm hc]
        · exact ih (by rw [hs]; exact List.mem_cons_of_mem _ h)
      · exact absurd hs (splitSlashes_ne_nil cs)

/-- What is joined from more parts is longer. -/
theorem joinSlashes_append_isPrefix (xs ys : List Bytes) :
    joinSlashes xs <+: joinSlashes (xs ++ ys) := by
  induction xs with
  | nil => exact List.nil_prefix
  | cons x xs ih =>
    cases xs with
    | nil =>
      cases ys with
      | nil => exact List.prefix_refl _
      | cons y ys => exact ⟨[slash] ++ joinSlashes (y :: ys), by simp [joinSlashes, List.intercalate]⟩
    | cons x' xs =>
      obtain ⟨rest, hrest⟩ := ih
      refine ⟨rest, ?_⟩
      simp only [joinSlashes, List.cons_append, List.intercalate_cons_cons] at hrest ⊢
      rw [← hrest, List.append_assoc]

/-- Behind other parts, a part stands behind a slash. -/
theorem joinSlashes_append_singleton {parts : List Bytes} (hne : parts ≠ []) (last : Bytes) :
    joinSlashes (parts ++ [last]) = joinSlashes parts ++ slash :: last := by
  induction parts with
  | nil => exact absurd rfl hne
  | cons x xs ih =>
    cases xs with
    | nil => simp [joinSlashes, List.intercalate]
    | cons y ys =>
      have htail := ih (by simp)
      simp only [joinSlashes, List.cons_append, List.intercalate_cons_cons] at htail ⊢
      rw [htail, List.append_assoc, List.append_assoc, List.append_assoc]

/-- The parts of a path. -/
def parts (p : Path) : List Bytes := splitSlashes p.bytes

/-- A path whose last part is empty, behind others, ends with a slash. -/
theorem getLast?_of_parts {p : Path} {above : List Bytes} (h : p.parts = above ++ [[]]) (hne : above ≠ []) :
    p.bytes.getLast? = some slash := by
  rw [← joinSlashes_splitSlashes p.bytes, show splitSlashes p.bytes = above ++ [[]] from h,
    joinSlashes_append_singleton hne]
  simp

/-- A path behind another one ends as it did before. -/
theorem getLast?_join (p : Path) {q : Path} (hq : q.bytes ≠ []) :
    (p.join q).bytes.getLast? = q.bytes.getLast? := by
  obtain ⟨c, hc⟩ : ∃ c, q.bytes.getLast? = some c := ⟨_, List.getLast?_eq_some_getLast hq⟩
  unfold join
  split
  · rfl
  · split <;> simp [List.getLast?_append, List.getLast?_cons, hc]

/-- Whether a path comes from another one by taking parents, maybe none. -/
inductive IsAncestor : Path → Path → Prop
  | refl (p : Path) : IsAncestor p p
  | up {a b p : Path} (h : IsAncestor a b) (parent : p.parent? = some b) : IsAncestor a p

/-! ### The directory of a file -/

theorem isIdle_iff {part : Bytes} : isIdle part = true ↔ part = [] ∨ part = [dot] := by simp [isIdle]

theorem isIdle_eq_false_iff {part : Bytes} : isIdle part = false ↔ part ≠ [] ∧ part ≠ [dot] := by
  simp [isIdle]

/-- Parts without those at their end that mean nothing. -/
def stripIdle (parts : List Bytes) : List Bytes := (parts.reverse.dropWhile isIdle).reverse

theorem exists_stripIdle (parts : List Bytes) :
    ∃ idle, parts = stripIdle parts ++ idle ∧ ∀ part ∈ idle, isIdle part = true := by
  refine ⟨(parts.reverse.takeWhile isIdle).reverse, ?_, fun part hpart => ?_⟩
  · rw [stripIdle, ← List.reverse_append, List.takeWhile_append_dropWhile, List.reverse_reverse]
  · exact List.all_eq_true.mp List.all_takeWhile part (List.mem_reverse.mp hpart)

/-- How the parent of a path is written. -/
def parentText (front : Option Component) (body : List Bytes) : Bytes :=
  match front with
  | some .root => slash :: joinSlashes body
  | some .current => if body.isEmpty then [dot] else dot :: slash :: joinSlashes body
  | _ => joinSlashes body

theorem parent?_of_front {p : Path} {front : Option Component} {above idle : List Bytes}
    {last : Bytes} (hfront : p.front = (front, above ++ last :: idle)) (hlast : isIdle last = false)
    (hidle : ∀ part ∈ idle, isIdle part = true) :
    p.parent? = some ⟨parentText front (stripIdle above)⟩ := by
  have hdrop : (above ++ last :: idle).reverse.dropWhile isIdle = last :: above.reverse := by
    rw [List.reverse_append, List.reverse_cons, List.append_assoc,
      List.dropWhile_append_of_pos fun part hpart => hidle part (List.mem_reverse.mp hpart)]
    simp [hlast]
  simp only [parent?, hfront, hdrop]
  rfl

theorem front_of_splitSlashes_root {p : Path} {parts : List Bytes} (hp : p.isAbsolute = true)
    (h : splitSlashes p.bytes = [] :: parts) : p.front = (some .root, parts) := by
  simp only [front, h, hp, if_true]

theorem front_of_splitSlashes_current {p : Path} {parts : List Bytes}
    (h : splitSlashes p.bytes = [dot] :: parts) : p.front = (some .current, parts) := by
  simp only [front, h]
  rfl

theorem front_of_splitSlashes {p : Path} {part : Bytes} {parts : List Bytes}
    (hpart : isIdle part = false) (h : splitSlashes p.bytes = part :: parts) :
    p.front = (none, part :: parts) := by
  obtain ⟨hne, hdot⟩ := isIdle_eq_false_iff.mp hpart
  simp only [front, h]
  split
  · rename_i heq
    cases heq
    exact absurd rfl hne
  · rename_i heq
    cases heq
    exact absurd rfl hdot
  · rfl

/-- A path is absolute if its first part is empty, and there is another one. -/
theorem isAbsolute_iff {p : Path} {part : Bytes} {parts : List Bytes}
    (h : splitSlashes p.bytes = part :: parts) (hne : p.bytes ≠ []) :
    p.isAbsolute = true ↔ part = [] := by
  unfold isAbsolute
  cases htext : p.bytes with
  | nil => exact absurd htext hne
  | cons c cs =>
    rw [htext, splitSlashes] at h
    split at h <;> rename_i hc
    · cases h
      simp [hc]
    · split at h <;> cases h <;> simp [hc]

/-! ### A name behind a path -/

/-- Some bytes name an entry of a directory. -/
structure IsName (name : Bytes) : Prop where
  no_slash : slash ∉ name
  ne_empty : name ≠ []
  ne_dot : name ≠ [dot]
  ne_dots : name ≠ [dot, dot]

/-- A text that names an entry. -/
theorem IsName.ofString {name : String} (no_slash : '/' ∉ name.toList) (ne_empty : name ≠ "")
    (ne_dot : name ≠ ".") (ne_dots : name ≠ "..") : IsName (Bytes.ofString name) where
  no_slash h := by
    obtain ⟨c, hc, hslash⟩ := Bytes.exists_mem_of_mem_ofString (by decide) h
    obtain rfl : c = '/' := Char.toNat_inj.mp hslash
    exact no_slash hc
  ne_empty h := ne_empty (Bytes.ofString_inj.mp h)
  ne_dot h := ne_dot (Bytes.ofString_inj.mp h)
  ne_dots h := ne_dots (Bytes.ofString_inj.mp h)

section Name

variable {p q : Path} {name : Bytes}

end Name

end Path

namespace FileSlot

open SnapStore.Path

/-- The directory of a file, if its parent is not the empty path. -/
theorem parentDir_eq {p a : Path} (h : p.parent? = some a) (hne : a.bytes ≠ []) : parentDir p = a := by
  simp only [parentDir, h, hne, if_false]

theorem not_mem_of_isIdle {part : Bytes} (h : isIdle part = true) : slash ∉ part := by
  rcases isIdle_iff.mp h with rfl | rfl <;> decide

/-- How the parent of a path of more than one part is written: with the parts in front of the last name, up
to parts at the end that mean nothing. -/
def HasParent (p : Path) (part : Bytes) (above behind : List Bytes) : Prop :=
  ∃ front gone more, above = front ++ gone ∧
    p.parent? = some ⟨joinSlashes (part :: front ++ more)⟩ ∧
    (∀ x ∈ gone, isIdle x = true) ∧ (∀ x ∈ more, isIdle x = true) ∧
    joinSlashes (part :: front ++ more) ≠ [] ∧
    joinSlashes (part :: front ++ more) <+: joinSlashes (part :: above ++ behind)

section Parent

variable {p : Path} {part last : Bytes} {above idle : List Bytes}

theorem joinSlashes_isPrefix (part : Bytes) (front gone behind : List Bytes) :
    joinSlashes (part :: front) <+: joinSlashes (part :: (front ++ gone) ++ behind) := by
  rw [← List.cons_append, List.append_assoc]
  exact joinSlashes_append_isPrefix ..

/-- An absolute path; of a file in the root directory, the slash at the front is the parent. -/
theorem hasParent_of_root (hp : splitSlashes p.bytes = [] :: above ++ last :: idle)
    (hne : p.bytes ≠ []) (hlast : isIdle last = false) (hidle : ∀ x ∈ idle, isIdle x = true) :
    HasParent p [] above (last :: idle) := by
  have hparent := parent?_of_front (front_of_splitSlashes_root ((isAbsolute_iff hp hne).mpr rfl) hp)
    hlast hidle
  obtain ⟨gone, hgone, hidleGone⟩ := exists_stripIdle above
  cases hbody : stripIdle above with
  | nil =>
    rw [hbody] at hgone hparent
    refine ⟨[], gone, [[]], hgone, hparent, hidleGone, by simp [isIdle], by simp [joinSlashes], ?_⟩
    cases above with
    | nil => exact ⟨joinSlashes (last :: idle), by simp [joinSlashes, List.intercalate]⟩
    | cons x above =>
      exact ⟨joinSlashes (x :: above ++ last :: idle), by simp [joinSlashes, List.intercalate]⟩
  | cons x body =>
    rw [hbody] at hgone hparent
    refine ⟨x :: body, gone, [], hgone, ?_, hidleGone, by simp, by simp [joinSlashes, List.intercalate], ?_⟩
    · rw [hparent]
      simp [parentText, joinSlashes, List.intercalate]
    · rw [hgone, List.append_nil]
      exact joinSlashes_isPrefix ..

/-- A path that starts with a dot, which stays where it is. -/
theorem hasParent_of_current (hp : splitSlashes p.bytes = [dot] :: above ++ last :: idle)
    (hlast : isIdle last = false) (hidle : ∀ x ∈ idle, isIdle x = true) :
    HasParent p [dot] above (last :: idle) := by
  have hparent := parent?_of_front (front_of_splitSlashes_current hp) hlast hidle
  obtain ⟨gone, hgone, hidleGone⟩ := exists_stripIdle above
  refine ⟨stripIdle above, gone, [], hgone, ?_, hidleGone, by simp, ?_, ?_⟩
  · rw [hparent]
    cases hbody : stripIdle above <;> simp [parentText, joinSlashes, List.intercalate]
  · cases stripIdle above <;> simp [joinSlashes, List.intercalate]
  · rw [List.append_nil]
    nth_rewrite 2 [hgone]
    exact joinSlashes_isPrefix ..

/-- A path that starts with a name. -/
theorem hasParent_of_name (hp : splitSlashes p.bytes = part :: above ++ last :: idle)
    (hpart : isIdle part = false) (hlast : isIdle last = false) (hidle : ∀ x ∈ idle, isIdle x = true) :
    HasParent p part above (last :: idle) := by
  have hfront : p.front = (none, (part :: above) ++ last :: idle) := front_of_splitSlashes hpart hp
  have hparent := parent?_of_front hfront hlast hidle
  obtain ⟨gone, hgone, hidleGone⟩ := exists_stripIdle (part :: above)
  cases hbody : stripIdle (part :: above) with
  | nil =>
    -- the name at the front means something
    rw [hbody, List.nil_append] at hgone
    have hidlePart := hidleGone part (by rw [← hgone]; exact List.mem_cons_self)
    rw [hpart] at hidlePart
    cases hidlePart
  | cons x front =>
    rw [hbody, List.cons_append, List.cons.injEq] at hgone
    obtain ⟨rfl, rfl⟩ := hgone
    rw [hbody] at hparent
    refine ⟨front, gone, [], rfl, ?_, hidleGone, by simp, ?_, ?_⟩
    · rw [hparent, List.append_nil]
      rfl
    · cases front with
      | nil =>
        intro hnil
        have hempty : part = [] := by simpa [joinSlashes, List.intercalate] using hnil
        rw [hempty] at hpart
        cases hpart
      | cons y front => simp [joinSlashes, List.intercalate]
    · rw [List.append_nil]
      exact joinSlashes_isPrefix ..

theorem hasParent (hp : splitSlashes p.bytes = part :: above ++ last :: idle) (hne : p.bytes ≠ [])
    (hlast : isIdle last = false) (hidle : ∀ x ∈ idle, isIdle x = true) :
    HasParent p part above (last :: idle) := by
  cases hpart : isIdle part with
  | false => exact hasParent_of_name hp hpart hlast hidle
  | true =>
    rcases isIdle_iff.mp hpart with rfl | rfl
    · exact hasParent_of_root hp hne hlast hidle
    · exact hasParent_of_current hp hlast hidle

/-- A single name lies in the current directory. -/
theorem parentDir_of_name (hp : splitSlashes p.bytes = last :: idle) (hlast : isIdle last = false)
    (hidle : ∀ x ∈ idle, isIdle x = true) : parentDir p = ⟨[dot]⟩ := by
  have hfront : p.front = (none, [] ++ last :: idle) := front_of_splitSlashes hlast hp
  have hparent := parent?_of_front hfront hlast hidle
  simp only [parentDir, hparent]
  rfl

end Parent

/-- **The directory of a file, as it is written.** It has the parts in front of the name of the file, up to
parts at the end that mean nothing. -/
theorem exists_parts_parentDir {p : Path} {above idle : List Bytes} {last : Bytes}
    (hp : splitSlashes p.bytes = above ++ last :: idle) (hlast : isIdle last = false)
    (hidle : ∀ x ∈ idle, isIdle x = true) :
    ∃ front gone more, above = front ++ gone ∧
      splitSlashes (parentDir p).bytes = front ++ more ∧
      (∀ x ∈ gone, isIdle x = true) ∧ (∀ x ∈ more, isIdle x = true) ∧
      (parentDir p).isAbsolute = p.isAbsolute ∧ (parentDir p).bytes ≠ [] ∧
      ((parentDir p).bytes <+: p.bytes ∨ (parentDir p).bytes = [dot]) := by
  have hne : p.bytes ≠ [] := by
    intro hnil
    rw [hnil, splitSlashes] at hp
    cases above with
    | nil =>
      cases hp
      cases hlast
    | cons part above => simp at hp
  cases above with
  | nil =>
    have hdir := parentDir_of_name hp hlast hidle
    refine ⟨[], [], [[dot]], rfl, ?_, by simp, by simp [isIdle], ?_, by rw [hdir]; decide, .inr ?_⟩
    · rw [hdir]
      rfl
    · have hrelative : ¬ p.isAbsolute = true := by
        rw [isAbsolute_iff hp hne]
        rintro rfl
        cases hlast
      rw [hdir, Bool.eq_false_iff.mpr hrelative]
      rfl
    · rw [hdir]
  | cons part above =>
    obtain ⟨front, gone, more, rfl, hparent, hgone, hmore, htext, hbegins⟩ :=
      hasParent hp hne hlast hidle
    have hdir := parentDir_eq hparent (by simpa using htext)
    have hslash : ∀ x ∈ part :: front ++ more, slash ∉ x := by
      intro x hx
      rcases List.mem_append.mp hx with hx | hx
      · have hmem : x ∈ splitSlashes p.bytes := by
          rw [hp, ← List.cons_append, List.append_assoc]
          exact List.mem_append_left _ hx
        exact not_mem_of_mem_splitSlashes hmem
      · exact not_mem_of_isIdle (hmore x hx)
    have hsplit : splitSlashes (parentDir p).bytes = part :: front ++ more := by
      rw [hdir, splitSlashes_joinSlashes hslash (by simp)]
    have hdirne : (parentDir p).bytes ≠ [] := by
      rw [hdir]
      exact htext
    refine ⟨part :: front, gone, more, rfl, hsplit, hgone, hmore, ?_, ?_, .inl ?_⟩
    · exact Bool.eq_iff_iff.mpr ((isAbsolute_iff hsplit hdirne).trans (isAbsolute_iff hp hne).symm)
    · exact hdirne
    · rw [hdir, ← joinSlashes_splitSlashes p.bytes, hp]
      exact hbegins

end FileSlot

end SnapStore
