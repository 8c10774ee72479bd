import Mathlib.Data.List.Induction
import SnapStore.Proofs.Slot.File

namespace SnapStore

/-!
# Writes that fail

A write that fails is to leave the blob that was there, or no blob if there was none.

* `Slot.SparesBlob` — in a given state, every write that fails does so.
* `MemorySlot.sparesBlob` — a slot in memory does so in any state.
* `FileSlot.sparesBlob` — a slot in a file does so if the file is there, or the directory that it is to be
  in, or if no part of its path leads up.  Otherwise the directories that a write has created can make a way
  to a file that was there all along.
-/

/-- The blob that can be read from a slot, if there is one. -/
def Slot.blob? {σ : Type} (slot : Slot σ) (s : σ) : Option Bytes := (slot.read s).toOption.join

/-- A write that fails leaves the blob that can be read from the slot. -/
def Slot.SparesBlob {σ : Type} (slot : Slot σ) (s : σ) : Prop :=
  ∀ b e s', slot.write b s = (.error e, s') → slot.blob? s' = slot.blob? s

theorem MemorySlot.sparesBlob (location : String) (s : MemorySlot) : (slot location).SparesBlob s := by
  intro b e s' h
  simp only [slot] at h
  split at h <;> cases h
  rfl

namespace FileTree

variable {t t' : FileTree} {place q r : Place}

theorem Same.readFile (h : t.Same t') (p : Path) : t'.readFile p = t.readFile p := by
  have hfollow : t'.follow = t.follow := by
    funext place part
    simp only [follow, h.find?]
  simp only [FileTree.readFile, resolve, open?, walk, hfollow, h.workingDir, h.find?]

/-- Above an entry there are entries. -/
theorem WellFormed.isSome_of_prefix (hwell : t.WellFormed) (h : q <+: r) (hr : (t.find? r).isSome = true) :
    (t.find? q).isSome = true := by
  obtain ⟨parts, rfl⟩ := h
  induction parts using List.reverseRecOn with
  | nil =>
    rw [List.append_nil] at hr
    exact hr
  | append_singleton parts last ih =>
    obtain ⟨e, he⟩ := Option.isSome_iff_exists.mp hr
    have habove := hwell.above _ e he
    rw [← List.append_assoc, List.dropLast_concat] at habove
    exact ih (by rw [habove]; rfl)

/-- Where a way leads when more entries are there, it leads as well if the entry at its end is there, unless
it leads up on the way. -/
theorem walk_of_found (hwell : t.WellFormed) (hkeeps : ∀ q e, t.find? q = some e → t'.find? q = some e)
    {parts : List Bytes} (hup : [Path.dot, Path.dot] ∉ parts) (h : t'.walk parts place = .ok q)
    (hq : (t.find? q).isSome = true) : t.walk parts place = .ok q ∧ place <+: q := by
  induction parts generalizing place with
  | nil =>
    cases h
    exact ⟨rfl, List.prefix_refl _⟩
  | cons part parts ih =>
    rw [walk_cons, bind_eq_ok_iff] at h
    obtain ⟨r, hr, h⟩ := h
    obtain ⟨hdir', hcases⟩ := follow_eq_ok_iff.mp hr
    obtain ⟨hrest, hprefix⟩ := ih (fun hmem => hup (List.mem_cons_of_mem part hmem)) h
    have hsome := hwell.isSome_of_prefix hprefix hq
    -- whatever is there in the smaller tree is the same thing in the larger one
    have hdir (hplace : (t.find? place).isSome = true) : t.find? place = some .directory := by
      obtain ⟨e, he⟩ := Option.isSome_iff_exists.mp hplace
      rw [hkeeps place e he, Option.some.injEq] at hdir'
      rw [he, hdir']
    suffices hfollow : t.follow place part = .ok r ∧ place <+: r by
      refine ⟨?_, hfollow.2.trans hprefix⟩
      rw [walk_cons, hfollow.1]
      exact hrest
    rcases hcases with ⟨hidle, rfl⟩ | ⟨rfl, -⟩ | ⟨hname, -, rfl⟩
    · exact ⟨follow_eq_ok_iff.mpr ⟨hdir hsome, .inl ⟨hidle, rfl⟩⟩, List.prefix_refl _⟩
    · exact absurd List.mem_cons_self hup
    · have habove : place <+: place ++ [part] := List.prefix_append ..
      exact ⟨follow_eq_ok_iff.mpr
        ⟨hdir (hwell.isSome_of_prefix habove hsome), .inr (.inr ⟨hname, hsome, rfl⟩)⟩, habove⟩

/-- A file that can be read when directories have been added was there before. -/
theorem GrowsBy.find?_of_file {a : Path} {b : Bytes} (h : t.GrowsBy t' a)
    (hq : t'.find? q = some (.file b)) :
    t.find? q = some (.file b) := by
  cases hfind : t.find? q with
  | none =>
    obtain ⟨hdir, -⟩ := h.adds q _ hfind hq
    cases hdir
  | some e => rw [← h.keeps q e hfind, hq]

end FileTree

namespace FileSlot

open FileTree

theorem blob?_eq_some_iff {p : Path} {t : FileTree} {b : Bytes} :
    (slot p).blob? t = some b ↔ t.readFile p = .ok b := by
  show (read disk p t).1.toOption.join = some b ↔ _
  rw [read_disk]
  cases t.readFile p with
  | ok b' => simp [Except.toOption]
  | error e => by_cases hkind : e.kind = .notFound <;> simp [hkind, Except.toOption]

/-- A write that has created no directories and fails leaves no trace. -/
theorem same_of_write_error {τ : Type} {d : Disk (StateM τ)} {tree : τ → FileTree} (hsound : d.Sound tree)
    {p : Path} {b : Bytes} {s s' : τ} {e : CacheError}
    (hdirs : tree (d.createDirAll (parentDir p) s).2 = tree s) (h : write d p b s = (.error e, s')) :
    (tree s).Same (tree s') := by
  unfold write at h
  rw [bind_apply] at h
  rw [← hdirs]
  cases hd : (d.createDirAll (parentDir p) s).1 with
  | error e' =>
    rw [hd] at h
    cases h
    exact .refl _
  | ok =>
    rw [hd] at h
    simp only at h
    rw [bind_apply] at h
    have hcreate := hsound.createTemp (parentDir p) (d.createDirAll (parentDir p) s).2 _ _ rfl
    cases hc : (d.createTemp (parentDir p) (d.createDirAll (parentDir p) s).2).1 with
    | error e' =>
      rw [hc] at h hcreate
      cases h
      rw [show tree _ = tree _ from hcreate]
      exact .refl _
    | ok temp =>
      rw [hc] at h hcreate
      rcases hsound.replace (hasTemp_of_createNew hcreate) h with ⟨-, hsame⟩ | ⟨hok, -⟩
      · exact hsame
      · cases hok

/-- What can be read after a write that has failed could be read before, unless the path leads up. -/
theorem readFile_of_write_error {τ : Type} {d : Disk (StateM τ)} {tree : τ → FileTree}
    (hsound : d.Sound tree)
    {p : Path} {b b' : Bytes} {s s' : τ} {e : CacheError} (hwell : (tree s).WellFormed)
    (hup : [Path.dot, Path.dot] ∉ p.parts) (h : write d p b s = (.error e, s'))
    (hread : (tree s').readFile p = .ok b') :
    (tree s).readFile p = .ok b' := by
  have hgrows := growsBy_of_write_error hsound h
  obtain ⟨q, hq, hfile⟩ := readFile_eq_ok_iff.mp hread
  obtain ⟨htakes, hwalk⟩ := resolve_eq_ok_iff.mp hq
  have hfound := hgrows.find?_of_file hfile
  rw [show (tree s').startOf p = (tree s).startOf p by simp only [startOf, hgrows.workingDir]] at hwalk
  have hway := (walk_of_found hwell hgrows.keeps hup hwalk (by rw [hfound]; rfl)).1
  exact readFile_eq_ok_iff.mpr ⟨q, resolve_eq_ok_iff.mpr ⟨htakes, hway⟩, hfound⟩

/-- **A slot in a file** spares its blob if the file is there, or the directory that it is to be in, or if
its path does not lead up. -/
theorem sparesBlob {p : Path} {t : FileTree}
    (h : (∃ b, t.readFile p = .ok b) ∨ t.isDir (parentDir p) = true ∨
      t.WellFormed ∧ [Path.dot, Path.dot] ∉ p.parts) :
    (slot p).SparesBlob t := by
  intro b e t' hw
  refine Option.ext fun x => ?_
  rw [blob?_eq_some_iff, blob?_eq_some_iff]
  have hgrows : t.GrowsBy t' (parentDir p) := growsBy_of_write_error disk_sound hw
  refine ⟨fun hread => ?_, hgrows.readFile⟩
  rcases h with ⟨y, hy⟩ | hdir | ⟨hwell, hup⟩
  · rw [hgrows.readFile hy] at hread
    cases hread
    exact hy
  · unfold isDir at hdir
    split at hdir
    · rename_i place hplace
      have hdirs := createDirAll_of_resolve hplace (of_decide_eq_true hdir)
      rw [← hread]
      exact ((same_of_write_error disk_sound (by rw [hdirs]) hw).readFile p).symm
    · cases hdir
  · exact readFile_of_write_error disk_sound hwell hup hw hread

end FileSlot

end SnapStore
