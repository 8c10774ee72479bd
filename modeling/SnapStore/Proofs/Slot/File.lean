import SnapStore.Proofs.Disk.Sound

namespace SnapStore

/-!
# What a slot in a file does to the files

* `Disk.Sound.write` — a write has created directories on the way to the file; if it has gone well, it has
  then put the blob into the file, and otherwise it has done nothing else.  This holds on any sound disk.
* `FileTree.HasPlace` and `FileTree.CanHold` — a path names a place for a file in a tree, or does so once the
  directories above it are there.
* `FileTree.CanHold.write` — then a write goes well.
* `FileTree.ChangesOnly` and `FileTree.LosesOnly` — what a request can change, and what a removal takes away.
* `FileSlot.remove_error` — a removal that fails changes nothing.
-/

open FileTree

variable {τ : Type} {d : Disk (StateM τ)} {tree : τ → FileTree} {s s' : τ} {t t' : FileTree}
  {p temp : Path} {b : Bytes}

/-! ### Writing on a sound disk -/

namespace Disk.Sound

/-- A write that is given up leaves no temporary file. -/
theorem abandon (h : d.Sound tree) {x : Bytes} (htemp : t.HasTemp (tree s) temp x) (e : CacheError) :
    (FileSlot.abandon d temp e s).1 = .error e ∧ t.Same (tree (FileSlot.abandon d temp e s).2) := by
  obtain ⟨v, hremove, hsame⟩ := htemp.exists_removeFile
  unfold FileSlot.abandon
  rw [bind_apply]
  exact ⟨rfl, by rw [← h.removeFile temp s v hremove] at hsame; exact hsame⟩

/-- **From the temporary file on**, a write fails and leaves no trace, or puts the blob into the file. -/
theorem replace (h : d.Sound tree) {x : Bytes} (htemp : t.HasTemp (tree s) temp x)
    {r : Except CacheError Unit} (hr : FileSlot.replace d p temp b s = (r, s')) :
    (∃ e, r = .error e) ∧ t.Same (tree s') ∨
      r = .ok () ∧ ∃ dir name, t.target p = .ok (dir, .name name false) ∧
        t.find? (dir ++ [name]) ≠ some .directory ∧ (t.put (dir ++ [name]) (.file b)).Same (tree s') := by
  have hgiveUp {u : τ} {y : Bytes} {e : CacheError} (hu : t.HasTemp (tree u) temp y)
      (hr : FileSlot.abandon d temp e u = (r, s')) : (∃ e, r = .error e) ∧ t.Same (tree s') := by
    obtain ⟨herror, hsame⟩ := h.abandon hu e
    rw [hr] at herror hsame
    exact ⟨⟨e, herror⟩, hsame⟩
  unfold FileSlot.replace at hr
  rw [bind_apply] at hr
  have hwrite := h.writeFile temp b s _ _ rfl
  cases hw : (d.writeFile temp b s).1 with
  | error e =>
    rw [hw] at hr hwrite
    rcases hwrite with hsame | ⟨part, hpart⟩
    · exact .inl (hgiveUp (by rw [hsame]; exact htemp) hr)
    · exact .inl (hgiveUp (htemp.writeFile hpart) hr)
  | ok =>
    rw [hw] at hr hwrite
    have hfilled := htemp.writeFile hwrite
    simp only at hr
    rw [bind_apply] at hr
    have hsync : t.HasTemp (tree (d.sync temp (d.writeFile temp b s).2).2) temp b := by
      rw [h.sync]
      exact hfilled
    cases hs : (d.sync temp (d.writeFile temp b s).2).1 with
    | error e =>
      rw [hs] at hr
      exact .inl (hgiveUp hsync hr)
    | ok =>
      rw [hs] at hr
      simp only at hr
      rw [bind_apply] at hr
      have hrename := h.rename temp p (d.sync temp (d.writeFile temp b s).2).2 _ _ rfl
      cases hm : (d.rename temp p (d.sync temp (d.writeFile temp b s).2).2).1 with
      | error e =>
        rw [hm] at hr hrename
        exact .inl (hgiveUp (by rw [show tree _ = tree _ from hrename]; exact hsync) hr)
      | ok =>
        rw [hm] at hr hrename
        cases hr
        exact .inr ⟨rfl, hsync.rename hrename⟩

/-- **A write on a sound disk** has created directories on the way to the file.  If it has gone well, it has
then put the blob into the file, and otherwise it has done nothing else. -/
theorem write (h : d.Sound tree) {r : Except CacheError Unit} (hr : FileSlot.write d p b s = (r, s')) :
    ∃ t, (tree s).GrowsBy t (FileSlot.parentDir p) ∧
      ((∃ e, r = .error e) ∧ t.Same (tree s') ∨
        r = .ok () ∧ ∃ dir name, t.target p = .ok (dir, .name name false) ∧
          t.find? (dir ++ [name]) ≠ some .directory ∧
          (t.put (dir ++ [name]) (.file b)).Same (tree s')) := by
  unfold FileSlot.write at hr
  rw [bind_apply] at hr
  have hgrows := h.createDirAll (FileSlot.parentDir p) s
  refine ⟨_, hgrows, ?_⟩
  cases hd : (d.createDirAll (FileSlot.parentDir p) s).1 with
  | error e =>
    rw [hd] at hr
    cases hr
    exact .inl ⟨⟨_, rfl⟩, .refl _⟩
  | ok =>
    rw [hd] at hr
    simp only at hr
    rw [bind_apply] at hr
    have hcreate := h.createTemp (FileSlot.parentDir p) (d.createDirAll (FileSlot.parentDir p) s).2 _ _ rfl
    cases hc : (d.createTemp (FileSlot.parentDir p) (d.createDirAll (FileSlot.parentDir p) s).2).1 with
    | error e =>
      rw [hc] at hr hcreate
      cases hr
      refine .inl ⟨⟨_, rfl⟩, ?_⟩
      rw [show tree _ = tree _ from hcreate]
      exact .refl _
    | ok temp =>
      rw [hc] at hr hcreate
      exact h.replace (hasTemp_of_createNew hcreate) hr

end Disk.Sound

/-! ### Places for files -/

namespace FileTree

/-- A path names a place for a file: an entry of a directory, with no directory there, and with room beside
it for a temporary file even if the file is there. -/
structure HasPlace (t : FileTree) (p : Path) (place : Place) : Prop where
  target : ∃ dir name, t.target p = .ok (dir, .name name false) ∧ place = dir ++ [name]
  free : t.find? place ≠ some .directory
  room : ∃ x, (t.put place (.file [])).createTemp (FileSlot.parentDir p) = .ok x

/-- A path names a place for a file once the directories above it have been created, which goes well. -/
def CanHold (t : FileTree) (p : Path) : Prop :=
  ∃ t' place, disk.createDirAll (FileSlot.parentDir p) t = (.ok (), t') ∧ t'.HasPlace p place

/-- The contents of the file at a place, if there is one. -/
def contentAt (t : FileTree) (place : Place) : Option Bytes :=
  match t.find? place with
  | some (.file content) => some content
  | _ => none

/-- A path that names an entry that is not there leads nowhere. -/
theorem resolve_of_missing {dir : Place} {name : Bytes} {slash : Bool}
    (ht : t.target p = .ok (dir, .name name slash)) (hfind : t.find? (dir ++ [name]) = none) :
    t.resolve p = .error (.os .notFound) := by
  obtain ⟨htakes, above, k, hparts, ⟨hne, hdot, hup, hsize⟩, hwalk, hdir, -⟩ := target_eq_ok_iff.mp ht
  have hfollow : t.follow dir name = .error .notFound := by
    simp [follow, hdir, hne, hdot, hup, Nat.not_lt.mpr hsize, hfind]
  have hwalk' : t.walk p.parts (t.startOf p) = .error .notFound := by
    rw [hparts, walk_append, hwalk]
    show t.follow dir name >>= t.walk (List.replicate k []) = _
    rw [hfollow]
    rfl
  exact resolve_of_walk_error htakes hwalk'

/-- A path leads nowhere if there is no file to remove. -/
theorem resolve_of_removeFile_error {e : IoError} (h : t.removeFile p = .error e)
    (hkind : e.kind = .notFound) : t.resolve p = .error (.os .notFound) := by
  unfold removeFile at h
  cases ht : t.target p with
  | error e' =>
    rw [ht] at h
    cases h
    exact resolve_of_target_error ht hkind
  | ok x =>
    obtain ⟨dir, last⟩ := x
    rw [ht] at h
    cases last with
    | special =>
      cases h
      cases hkind
    | name name slash =>
      simp only [bind, Except.bind] at h
      split at h
      · exact resolve_of_missing ht ‹_›
      · cases h
        cases hkind
      · split at h <;> cases h
        cases hkind

namespace HasPlace

variable {place : Place}

theorem ne_nil (h : t.HasPlace p place) : place ≠ [] := by
  obtain ⟨⟨dir, name, -, rfl⟩, -, -⟩ := h
  simp

/-- What is there is a file or nothing. -/
theorem find?_eq (h : t.HasPlace p place) : t.find? place = (t.contentAt place).map .file := by
  unfold contentAt
  split
  · assumption
  · rename_i hfile
    cases hfind : t.find? place with
    | none => rfl
    | some e =>
      cases e with
      | file content => exact absurd hfind (hfile content)
      | directory => exact absurd hfind h.free

theorem readFile (h : t.HasPlace p place) : t.readFile p = match t.contentAt place with
    | some b => .ok b
    | none => .error (.os .notFound) := by
  have hfind := h.find?_eq
  obtain ⟨⟨dir, name, ht, rfl⟩, -, -⟩ := h
  cases hcontent : t.contentAt (dir ++ [name]) with
  | some b =>
    rw [hcontent] at hfind
    exact readFile_eq_ok_iff.mpr ⟨_, resolve_of_target ht hfind (.inl rfl), hfind⟩
  | none =>
    rw [hcontent] at hfind
    rw [FileTree.readFile, resolve_of_missing ht hfind]
    rfl

theorem removeFile (h : t.HasPlace p place) : t.removeFile p = match t.contentAt place with
    | some _ => .ok (t.drop place)
    | none => .error (.os .notFound) := by
  have hfind := h.find?_eq
  obtain ⟨⟨dir, name, ht, rfl⟩, -, -⟩ := h
  cases hcontent : t.contentAt (dir ++ [name]) with
  | some b =>
    rw [hcontent] at hfind
    exact removeFile_eq_ok_iff.mpr ⟨dir, name, b, ht, hfind, rfl⟩
  | none =>
    rw [hcontent] at hfind
    rw [FileTree.removeFile, ht]
    simp only [bind, Except.bind, hfind, Option.map_none]
    rfl

/-- A path names the same place for a file when only that file has changed. -/
theorem of_same (h : t.HasPlace p place) (hworking : t'.workingDir = t.workingDir)
    (hothers : ∀ q, q ≠ place → t'.find? q = t.find? q) (hfree : t'.find? place ≠ some .directory) :
    t'.HasPlace p place := by
  have hdirs : t.Dirs t' := ⟨hworking, fun q hq => by
    rw [hothers q (fun heq => h.free (heq ▸ hq)), hq]⟩
  have hne := h.ne_nil
  obtain ⟨⟨dir, name, ht, hplace⟩, -, x, hroom⟩ := h
  have hsame : (t.put place (.file [])).Same (t'.put place (.file [])) := by
    refine ⟨hworking, fun q => ?_⟩
    rw [find?_put t' hne, find?_put t hne]
    split
    · rfl
    · rename_i hq
      exact hothers q hq
  exact ⟨⟨dir, name, target_of_dirs hdirs ht, hplace⟩, hfree,
    exists_createTemp hsame.dirs (fun q hq => by rw [hsame.find?, hq]) ⟨x, hroom⟩⟩

/-- Creating the directories above a place that is there changes nothing. -/
theorem createDirAll (h : t.HasPlace p place) :
    disk.createDirAll (FileSlot.parentDir p) t = (.ok (), t) := by
  obtain ⟨⟨dir, name, ht, -⟩, -, -⟩ := h
  obtain ⟨-, -, -, -, -, -, hdir, -⟩ := target_eq_ok_iff.mp ht
  exact createDirAll_of_resolve (resolve_parentDir ht) hdir

theorem canHold (h : t.HasPlace p place) : t.CanHold p := ⟨t, place, h.createDirAll, h⟩

/-- A temporary file can be created beside a place for a file. -/
theorem exists_temp (h : t.HasPlace p place) :
    ∃ temp u, disk.createTemp (FileSlot.parentDir p) t = (.ok temp, u) ∧ t.HasTemp u temp [] := by
  obtain ⟨⟨temp, u⟩, htemp⟩ := exists_createTemp (dirs_of_put h.ne_nil []) (fun q hq => by
    rw [find?_put t h.ne_nil] at hq
    split at hq
    · cases hq
    · exact hq) h.room
  exact ⟨temp, u, by simp only [disk, htemp], hasTemp_of_createNew (createNew_of_createFirst htemp)⟩

/-- **A write to a place for a file** goes well, and the blob is all that changes. -/
theorem write (h : t.HasPlace p place) (b : Bytes) :
    ∃ u, FileSlot.write disk p b t = (.ok (), u) ∧ (t.put place (.file b)).Same u := by
  obtain ⟨temp, u, htemp, hhas⟩ := h.exists_temp
  have hdirs := h.createDirAll
  obtain ⟨⟨dir, name, ht, rfl⟩, hfree, -⟩ := h
  obtain ⟨v, hv⟩ := hhas.exists_writeFile b
  have hfilled := hhas.writeFile hv
  obtain ⟨w, hw⟩ := hfilled.exists_rename ht hfree
  obtain ⟨dir', name', ht', -, hsame⟩ := hfilled.rename hw
  rw [ht] at ht'
  cases ht'
  refine ⟨w, ?_, hsame⟩
  have hwrite : disk.writeFile temp b u = (.ok (), v) := by simp only [disk, change, hv]
  have hsync : disk.sync temp v = (.ok (), v) := rfl
  have hrename : disk.rename temp p v = (.ok (), w) := by simp only [disk, change, hw]
  unfold FileSlot.write
  rw [bind_apply, hdirs]
  show (disk.createTemp (FileSlot.parentDir p) >>= _) t = _
  rw [bind_apply, htemp]
  show FileSlot.replace disk p temp b u = _
  unfold FileSlot.replace
  rw [bind_apply, hwrite]
  show (disk.sync temp >>= _) v = _
  rw [bind_apply, hsync]
  show (disk.rename temp p >>= _) v = _
  rw [bind_apply, hrename]
  rfl

end HasPlace

/-- A write begins by creating the directories above the file. -/
theorem write_of_createDirAll {u : FileTree}
    (h : disk.createDirAll (FileSlot.parentDir p) t = (.ok (), u))
    (hu : disk.createDirAll (FileSlot.parentDir p) u = (.ok (), u)) :
    FileSlot.write disk p b t = FileSlot.write disk p b u := by
  unfold FileSlot.write
  rw [bind_apply, bind_apply, h, hu]

/-! ### Places that are not there yet -/

/-- A file system: every entry lies in a directory, and so do the paths that are relative. -/
structure WellFormed (t : FileTree) : Prop where
  workingDir : t.find? t.workingDir = some .directory
  above : ∀ q e, t.find? q = some e → t.find? q.dropLast = some .directory

/-- A file that can be read can be removed. -/
theorem exists_removeFile (hwell : t.WellFormed) (h : t.readFile p = .ok b) :
    ∃ u, t.removeFile p = .ok u := by
  obtain ⟨q, hq, hfile⟩ := readFile_eq_ok_iff.mp h
  obtain ⟨htakes, hwalk⟩ := resolve_eq_ok_iff.mp hq
  have hnodir : t.find? q ≠ some .directory := by
    rw [hfile]
    simp
  -- only directories are followed by slashes
  have hend {k : Nat} {r : Place} (hr : t.walk (List.replicate k []) r = .ok q) : k = 0 ∧ q = r := by
    have heq := eq_of_walk_idle (fun part hpart => .inl (List.eq_of_mem_replicate hpart)) hr
    refine ⟨?_, heq⟩
    cases k with
    | zero => rfl
    | succ k =>
      rw [List.replicate_succ, walk_cons, bind_eq_ok_iff] at hr
      obtain ⟨_, hfollow, -⟩ := hr
      exact absurd (follow_eq_ok_iff.mp hfollow).1 (heq ▸ hnodir)
  cases hback : p.parts.reverse.dropWhile (· = []) with
  | nil =>
    have htake : p.parts.reverse.takeWhile (· = []) = p.parts.reverse := by
      rw [← List.append_nil (List.takeWhile _ _), ← hback, List.takeWhile_append_dropWhile]
    have hall : p.parts = List.replicate p.parts.length [] := by
      refine List.eq_replicate_of_mem fun x hx => ?_
      rw [← List.mem_reverse, ← htake] at hx
      simpa using List.all_eq_true.mp List.all_takeWhile x hx
    obtain ⟨hlength, -⟩ := hend (by rw [← hall]; exact hwalk)
    have hnil := List.eq_nil_of_length_eq_zero hlength
    exact absurd hnil (Path.splitSlashes_ne_nil _)
  | cons last above =>
    obtain ⟨hne, k, hparts⟩ := exists_of_dropWhile hback
    rw [hparts, walk_append, bind_eq_ok_iff] at hwalk
    obtain ⟨dir, hdir, hlast⟩ := hwalk
    rw [walk_cons, bind_eq_ok_iff] at hlast
    obtain ⟨r, hr, hrest⟩ := hlast
    obtain ⟨rfl, rfl⟩ := hend hrest
    obtain ⟨hdirectory, ⟨-, rfl⟩ | ⟨-, rfl⟩ | ⟨hname, -, rfl⟩⟩ := follow_eq_ok_iff.mp hr
    · exact absurd hdirectory hnodir
    · exact absurd (hwell.above _ _ hdirectory) hnodir
    · have ht : t.target p = .ok (dir, .name last false) :=
        target_eq_ok_iff.mpr ⟨htakes, above.reverse, 0, hparts, hname, hdir, hdirectory, rfl⟩
      exact ⟨_, removeFile_eq_ok_iff.mpr ⟨dir, last, b, ht, hfile, rfl⟩⟩

/-- Where a way leads when more entries are there, it leads as well, unless an entry is missing. -/
theorem walk_of_keeps (hwell : t.WellFormed) (hkeeps : ∀ q e, t.find? q = some e → t'.find? q = some e)
    {parts : List Bytes} {place q : Place} (hplace : (t.find? place).isSome = true)
    (h : t'.walk parts place = .ok q) :
    t.walk parts place = .ok q ∧ (t.find? q).isSome = true ∨ t.walk parts place = .error .notFound := by
  induction parts generalizing place with
  | nil =>
    cases h
    exact .inl ⟨rfl, hplace⟩
  | cons part parts ih =>
    rw [walk_cons, bind_eq_ok_iff] at h
    obtain ⟨r, hr, h⟩ := h
    obtain ⟨hdir', hcases⟩ := follow_eq_ok_iff.mp hr
    have hdir : t.find? place = some .directory := by
      obtain ⟨e, he⟩ := Option.isSome_iff_exists.mp hplace
      rw [hkeeps place e he, Option.some.injEq] at hdir'
      rw [he, hdir']
    -- a way that goes on in the smaller tree is covered by the induction
    have hgo (hf : t.follow place part = .ok r) (hsome : (t.find? r).isSome = true) :
        t.walk (part :: parts) place = .ok q ∧ (t.find? q).isSome = true ∨
          t.walk (part :: parts) place = .error .notFound := by
      rw [walk_cons, hf]
      exact ih hsome h
    rcases hcases with ⟨hidle, rfl⟩ | ⟨hup, rfl⟩ | ⟨hname, -, rfl⟩
    · exact hgo (follow_eq_ok_iff.mpr ⟨hdir, .inl ⟨hidle, rfl⟩⟩) hplace
    · exact hgo (follow_eq_ok_iff.mpr ⟨hdir, .inr (.inl ⟨hup, rfl⟩)⟩) (by rw [hwell.above _ _ hdir]; rfl)
    · cases hfind : t.find? (place ++ [part]) with
      | some e =>
        exact hgo (follow_eq_ok_iff.mpr ⟨hdir, .inr (.inr ⟨hname, by rw [hfind]; rfl, rfl⟩)⟩)
          (by rw [hfind]; rfl)
      | none =>
        refine .inr ?_
        have hfollow : t.follow place part = .error .notFound := by
          simp [follow, hdir, hname, Nat.not_lt.mpr hname.2.2.2, hfind]
        rw [walk_cons, hfollow]
        rfl

/-- **Before the directories are there**, a path that can hold a file names its place, or nothing is
there. -/
theorem CanHold.cases (hwell : t.WellFormed) (h : t.CanHold p) :
    (∃ place, t.HasPlace p place) ∨
      t.readFile p = .error (.os .notFound) ∧ t.removeFile p = .error (.os .notFound) := by
  obtain ⟨t', place, hcreate, hplace⟩ := h
  have hgrows : t.GrowsBy t' (FileSlot.parentDir p) := by
    have := disk_sound.createDirAll (FileSlot.parentDir p) t
    rw [hcreate] at this
    exact this
  obtain ⟨dir, name, ht', -⟩ := hplace.target
  obtain ⟨htakes, above, k, hparts, hname, hwalk', hdir', hk⟩ := target_eq_ok_iff.mp ht'
  have hstart : t'.startOf p = t.startOf p := by simp only [startOf, hgrows.workingDir]
  have hsome : (t.find? (t.startOf p)).isSome = true := by
    unfold startOf
    split
    · rfl
    · rw [hwell.workingDir]
      rfl
  rw [hstart] at hwalk'
  rcases walk_of_keeps hwell hgrows.keeps hsome hwalk' with ⟨hwalk, hdirSome⟩ | hmissing
  · -- the directory of the file is there, so that there was nothing to create
    have hdir : t.find? dir = some .directory := by
      obtain ⟨e, he⟩ := Option.isSome_iff_exists.mp hdirSome
      rw [hgrows.keeps dir e he, Option.some.injEq] at hdir'
      rw [he, hdir']
    have ht : t.target p = .ok (dir, .name name false) :=
      target_eq_ok_iff.mpr ⟨htakes, above, k, hparts, hname, hwalk, hdir, hk⟩
    rw [createDirAll_of_resolve (resolve_parentDir ht) hdir] at hcreate
    cases hcreate
    exact .inl ⟨_, hplace⟩
  · refine .inr ⟨?_, ?_⟩
    · have hwalk : t.walk p.parts (t.startOf p) = .error .notFound := by
        rw [hparts, walk_append, hmissing]
        rfl
      rw [FileTree.readFile, resolve_of_walk_error htakes hwalk]
      rfl
    · unfold FileTree.removeFile
      rw [target_of_walk_error htakes hparts hname.1 hmissing]
      rfl

theorem contentAt_of_same {place : Place} (hne : place ≠ []) (h : (t.put place (.file b)).Same t') :
    t'.contentAt place = some b := by
  simp only [contentAt, h.find?, find?_put t hne, if_true]

/-- **A write to a path that can hold a file** goes well, and leaves the blob in its place. -/
theorem CanHold.write (h : t.CanHold p) (b : Bytes) :
    ∃ u place, FileSlot.write disk p b t = (.ok (), u) ∧ u.HasPlace p place ∧
      u.contentAt place = some b := by
  obtain ⟨t', place, hcreate, hplace⟩ := h
  obtain ⟨u, hwrite, hsame⟩ := hplace.write b
  refine ⟨u, place, (write_of_createDirAll hcreate hplace.createDirAll).trans hwrite, ?_,
    contentAt_of_same hplace.ne_nil hsame⟩
  refine hplace.of_same hsame.workingDir (fun q hq => ?_) ?_
  · rw [hsame.find?, find?_put t' hplace.ne_nil, if_neg hq]
  · rw [hsame.find?, find?_put t' hplace.ne_nil, if_pos rfl]
    simp

/-! ### What changes -/

/-- All that can have changed is the entry that a path names, and directories that are new and lie on the way
to it. -/
structure ChangesOnly (t t' : FileTree) (p : Path) : Prop where
  workingDir : t'.workingDir = t.workingDir
  entries : ∀ q, t'.find? q = t.find? q ∨ t'.Names p q ∨
    t.find? q = none ∧ t'.find? q = some .directory ∧
      ∃ a : Path, a.IsAncestor (FileSlot.parentDir p) ∧ t'.Names a q

theorem ChangesOnly.refl (t : FileTree) (p : Path) : t.ChangesOnly t p := ⟨rfl, fun _ => .inl rfl⟩

theorem GrowsBy.of_same {u : FileTree} {a : Path} (h : t.GrowsBy t' a) (hsame : t'.Same u) :
    t.GrowsBy u a where
  workingDir := hsame.workingDir.trans h.workingDir
  keeps q e hq := by rw [hsame.find?, h.keeps q e hq]
  adds q e hq hq' := by
    rw [hsame.find?] at hq'
    obtain ⟨he, b, hb, hnames⟩ := h.adds q e hq hq'
    exact ⟨he, b, hb, hnames.of_dirs hsame.dirs⟩

/-- A path leads nowhere any more, and nothing but the file that it led to is gone. -/
structure LosesOnly (t t' : FileTree) (p : Path) : Prop where
  absent : t'.resolve p = .error (.os .notFound)
  workingDir : t'.workingDir = t.workingDir
  others : ∀ q, t.resolve p ≠ .ok q → t'.find? q = t.find? q

end FileTree

namespace FileSlot

/-- **A write that fails on a sound disk** leaves every entry as it was.  It has created directories on the
way to the file, or nothing. -/
theorem growsBy_of_write_error (h : d.Sound tree) {e : CacheError} (hw : write d p b s = (.error e, s')) :
    (tree s).GrowsBy (tree s') (parentDir p) := by
  obtain ⟨t, hgrows, ⟨-, hsame⟩ | ⟨hok, -⟩⟩ := h.write hw
  · exact hgrows.of_same hsame
  · cases hok

theorem remove_disk (t : FileTree) (p : Path) : remove disk p t = match t.removeFile p with
    | .ok u => (.ok true, u)
    | .error e =>
      (if e.kind = .notFound then .ok false else .error (.ioAt "remove cache file" p e), t) := by
  unfold remove
  rw [bind_apply]
  simp only [disk, change]
  cases t.removeFile p with
  | ok u => rfl
  | error e =>
    simp only
    split <;> rfl

theorem read_disk (t : FileTree) (p : Path) : read disk p t = (match t.readFile p with
    | .ok b => .ok (some b)
    | .error e => if e.kind = .notFound then .ok none else .error (.ioAt "read cache file" p e), t) := by
  unfold read
  rw [bind_apply]
  simp only [disk]
  cases t.readFile p with
  | ok b => rfl
  | error e =>
    simp only
    split <;> rfl

/-- **A removal that fails** changes nothing. -/
theorem remove_error {e : CacheError} (h : (slot p).remove t = (.error e, t')) : t' = t := by
  have h' : remove disk p t = (.error e, t') := h
  rw [remove_disk] at h'
  split at h'
  · cases h'
  · exact (Prod.mk.inj h').2.symm

/-- **A removal that goes well** takes away the file, and tells whether there was one. -/
theorem remove_ok {removed : Bool} (h : remove disk p t = (.ok removed, t')) :
    t.LosesOnly t' p ∧ (removed = true ↔ ∃ b, t.readFile p = .ok b) := by
  rw [remove_disk] at h
  cases hr : t.removeFile p with
  | ok u =>
    rw [hr] at h
    cases h
    obtain ⟨dir, name, content, ht, hfind, rfl⟩ := removeFile_eq_ok_iff.mp hr
    have hplace : dir ++ [name] ≠ [] := by simp
    have hresolve := resolve_of_target ht hfind (.inl rfl)
    refine ⟨⟨?_, rfl, fun q hq => ?_⟩, ?_⟩
    · refine resolve_of_missing (target_of_dirs (dirs_drop hplace (by rw [hfind]; simp)) ht) ?_
      rw [find?_drop t hplace, if_pos rfl]
    · rw [find?_drop t hplace, if_neg]
      rintro rfl
      exact hq hresolve
    · simp only [true_iff]
      exact ⟨content, readFile_eq_ok_iff.mpr ⟨_, hresolve, hfind⟩⟩
  | error e =>
    rw [hr] at h
    simp only at h
    split at h <;> cases h
    rename_i hkind
    -- there was no file, so that nothing has changed
    have habsent := resolve_of_removeFile_error hr hkind
    refine ⟨⟨habsent, rfl, fun _ _ => rfl⟩, ?_⟩
    simp only [Bool.false_eq_true, readFile_eq_ok_iff, habsent, reduceCtorEq, false_and, exists_false]

end FileSlot

end SnapStore
