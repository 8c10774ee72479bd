import SnapStore.Proofs.Disk.Tree

namespace SnapStore

/-!
# Disks that can fail

A disk is sound if each of its operations either does what it does in a file tree, or fails and leaves the
files alone; only filling a file can fail halfway.  Removing a file never fails when there is one.

* `FileTree.GrowsBy` — a tree has got directories on the way to a path, and nothing else.
* `Disk.Sound` says what a sound disk is.
* `Disk.Sound.createDirAll` — creating a directory and those above it does nothing else, failed or not.
* `FileTree.disk_sound`, `FileTree.unreliable_sound` — a file tree is sound, also if its operations fail now
  and then.
-/

namespace FileTree

variable {t t' u v : FileTree} {a p temp : Path} {place q dir : Place} {name : Bytes} {x y : Bytes}

/-! ### New directories -/

/-- A path names the entry at a place, which may be there or not. -/
def Names (t : FileTree) (p : Path) (place : Place) : Prop :=
  ∃ dir name slash, t.target p = .ok (dir, .name name slash) ∧ place = dir ++ [name]

/-- A tree keeps all entries; what is new are directories, named by a path or those above it. -/
structure GrowsBy (t t' : FileTree) (a : Path) : Prop where
  workingDir : t'.workingDir = t.workingDir
  keeps : ∀ q e, t.find? q = some e → t'.find? q = some e
  adds : ∀ q e, t.find? q = none → t'.find? q = some e →
    e = .directory ∧ ∃ b : Path, b.IsAncestor a ∧ t'.Names b q

theorem GrowsBy.refl (t : FileTree) (a : Path) : t.GrowsBy t a where
  workingDir := rfl
  keeps _ _ h := h
  adds q e h h' := by
    rw [h] at h'
    cases h'

theorem GrowsBy.dirs (h : t.GrowsBy t' a) : t.Dirs t' := ⟨h.workingDir, fun q hq => h.keeps q _ hq⟩

theorem Names.of_dirs (h : t.Names p q) (hdirs : t.Dirs t') : t'.Names p q := by
  obtain ⟨dir, name, slash, ht, rfl⟩ := h
  exact ⟨dir, name, slash, target_of_dirs hdirs ht, rfl⟩

theorem GrowsBy.trans (h : t.GrowsBy t' a) (h' : t'.GrowsBy u a) : t.GrowsBy u a where
  workingDir := h'.workingDir.trans h.workingDir
  keeps q e hq := h'.keeps q e (h.keeps q e hq)
  adds q e hq hq' := by
    cases ht : t'.find? q with
    | none => exact h'.adds q e ht hq'
    | some e' =>
      obtain ⟨rfl, b, hb, hnames⟩ := h.adds q e' hq ht
      rw [h'.keeps q _ ht, Option.some.injEq] at hq'
      exact ⟨hq'.symm, b, hb, hnames.of_dirs h'.dirs⟩

theorem GrowsBy.up {above : Path} (h : t.GrowsBy t' above) (hp : p.parent? = some above) :
    t.GrowsBy t' p where
  workingDir := h.workingDir
  keeps := h.keeps
  adds q e hq hq' := by
    obtain ⟨he, b, hb, hnames⟩ := h.adds q e hq hq'
    exact ⟨he, b, .up hb hp, hnames⟩

/-- New directories do not lead a path astray. -/
theorem GrowsBy.walk (h : t.GrowsBy t' a) {parts : List Bytes} (hwalk : t.walk parts place = .ok q) :
    t'.walk parts place = .ok q := by
  induction parts generalizing place with
  | nil => exact hwalk
  | cons part parts ih =>
    rw [walk_cons, bind_eq_ok_iff] at hwalk ⊢
    obtain ⟨r, hr, hwalk⟩ := hwalk
    refine ⟨r, ?_, ih hwalk⟩
    obtain ⟨hdir, hcases⟩ := follow_eq_ok_iff.mp hr
    refine follow_eq_ok_iff.mpr ⟨h.keeps _ _ hdir, hcases.imp_right (Or.imp_right ?_)⟩
    rintro ⟨hname, hsome, rfl⟩
    obtain ⟨e, he⟩ := Option.isSome_iff_exists.mp hsome
    exact ⟨hname, by rw [h.keeps _ e he]; rfl, rfl⟩

/-- New directories leave the file alone that a path leads to. -/
theorem GrowsBy.readFile (h : t.GrowsBy t' a) (hread : t.readFile p = .ok x) : t'.readFile p = .ok x := by
  obtain ⟨q, hq, hfind⟩ := readFile_eq_ok_iff.mp hread
  obtain ⟨htakes, hwalk⟩ := resolve_eq_ok_iff.mp hq
  have hstart : t'.startOf p = t.startOf p := by simp only [startOf, h.workingDir]
  exact readFile_eq_ok_iff.mpr
    ⟨q, resolve_eq_ok_iff.mpr ⟨htakes, by rw [hstart]; exact h.walk hwalk⟩, h.keeps q _ hfind⟩

theorem growsBy_of_createDir (h : t.createDir p = .ok t') : t.GrowsBy t' p := by
  obtain ⟨dir, name, slash, ht, hfind, rfl⟩ := createDir_eq_ok_iff.mp h
  have hplace : dir ++ [name] ≠ [] := by simp
  have hdirs := dirs_put hplace (by rw [hfind]; simp) .directory
  refine ⟨rfl, fun q e hq => ?_, fun q e hq hq' => ?_⟩
  · rw [find?_put t hplace, if_neg, hq]
    rintro rfl
    rw [hfind] at hq
    cases hq
  · rw [find?_put t hplace] at hq'
    split at hq'
    · rename_i heq
      cases hq'
      exact ⟨rfl, p, .refl p, dir, name, slash, target_of_dirs hdirs ht, heq⟩
    · rw [hq] at hq'
      cases hq'

/-! ### A temporary file -/

/-- A tree is another one with one more file, which a path names. -/
def HasTemp (t u : FileTree) (temp : Path) (x : Bytes) : Prop :=
  ∃ dir name, t.target temp = .ok (dir, .name name false) ∧ t.find? (dir ++ [name]) = none ∧
    (t.put (dir ++ [name]) (.file x)).Same u

theorem hasTemp_of_createNew (h : t.createNew temp = .ok u) : t.HasTemp u temp [] := by
  obtain ⟨dir, name, ht, hfind, rfl⟩ := createNew_eq_ok_iff.mp h
  exact ⟨dir, name, ht, hfind, .refl _⟩

/-- One more file changes no directory. -/
theorem dirs_of_hasTemp (hfind : t.find? (dir ++ [name]) = none)
    (hsame : (t.put (dir ++ [name]) (.file x)).Same u) : t.Dirs u ∧ u.Dirs t :=
  have hplace : dir ++ [name] ≠ [] := by simp
  ⟨(dirs_put hplace (by rw [hfind]; simp) _).trans hsame.dirs, hsame.symm.dirs.trans (dirs_of_put hplace x)⟩

theorem find?_of_hasTemp (hsame : (t.put (dir ++ [name]) (.file x)).Same u) (q : Place) :
    u.find? q = if q = dir ++ [name] then some (.file x) else t.find? q := by
  rw [hsame.find?, find?_put t (by simp)]

/-- A temporary file can be filled. -/
theorem HasTemp.exists_writeFile (h : t.HasTemp u temp x) (y : Bytes) : ∃ v, u.writeFile temp y = .ok v := by
  obtain ⟨dir, name, ht, hfind, hsame⟩ := h
  refine ⟨_, writeFile_eq_ok_iff.mpr
    ⟨dir, name, target_of_dirs (dirs_of_hasTemp hfind hsame).1 ht, ?_, rfl⟩⟩
  rw [find?_of_hasTemp hsame, if_pos rfl]
  simp

theorem HasTemp.writeFile (h : t.HasTemp u temp x) (hv : u.writeFile temp y = .ok v) :
    t.HasTemp v temp y := by
  obtain ⟨dir, name, ht, hfind, hsame⟩ := h
  obtain ⟨dir', name', ht', -, rfl⟩ := writeFile_eq_ok_iff.mp hv
  rw [target_of_dirs (dirs_of_hasTemp hfind hsame).1 ht] at ht'
  cases ht'
  refine ⟨dir, name, ht, hfind, hsame.workingDir, fun q => ?_⟩
  rw [find?_put u (by simp), find?_put t (by simp), find?_of_hasTemp hsame]
  split <;> rfl

/-- A temporary file can be removed, and then everything is as before. -/
theorem HasTemp.exists_removeFile (h : t.HasTemp u temp x) : ∃ v, u.removeFile temp = .ok v ∧ t.Same v := by
  obtain ⟨dir, name, ht, hfind, hsame⟩ := h
  refine ⟨_, removeFile_eq_ok_iff.mpr ⟨dir, name, x,
    target_of_dirs (dirs_of_hasTemp hfind hsame).1 ht, ?_, rfl⟩, hsame.workingDir, fun q => ?_⟩
  · rw [find?_of_hasTemp hsame, if_pos rfl]
  · rw [find?_drop u (by simp), find?_of_hasTemp hsame]
    split
    · rename_i heq
      rw [heq, hfind]
    · rfl

/-- A temporary file can take the place of a file, or of nothing. -/
theorem HasTemp.exists_rename (h : t.HasTemp u temp x) (ht : t.target p = .ok (dir, .name name false))
    (hdir : t.find? (dir ++ [name]) ≠ some .directory) : ∃ v, u.rename temp p = .ok v := by
  obtain ⟨dir', name', htemp, hfind, hsame⟩ := h
  have hdirs := (dirs_of_hasTemp hfind hsame).1
  have hcontent : u.find? (dir' ++ [name']) = some (.file x) := by
    rw [find?_of_hasTemp hsame, if_pos rfl]
  refine ⟨_, rename_eq_ok_iff.mpr ⟨dir' ++ [name'], x, dir, name,
    resolve_of_target (target_of_dirs hdirs htemp) hcontent (.inl rfl), hcontent, target_of_dirs hdirs ht,
    ?_, rfl⟩⟩
  rw [find?_of_hasTemp hsame]
  split
  · simp
  · exact hdir

/-- Once it has done so, everything else is as before. -/
theorem HasTemp.rename (h : t.HasTemp u temp x) (hv : u.rename temp p = .ok v) :
    ∃ dir name, t.target p = .ok (dir, .name name false) ∧ t.find? (dir ++ [name]) ≠ some .directory ∧
      (t.put (dir ++ [name]) (.file x)).Same v := by
  obtain ⟨dir', name', htemp, hfind, hsame⟩ := h
  have hdirs := dirs_of_hasTemp hfind hsame
  have hcontent : u.find? (dir' ++ [name']) = some (.file x) := by
    rw [find?_of_hasTemp hsame, if_pos rfl]
  obtain ⟨place, content, dir, name, hplace, hfile, ht, hdir, rfl⟩ := rename_eq_ok_iff.mp hv
  rw [resolve_of_target (target_of_dirs hdirs.1 htemp) hcontent (.inl rfl), Except.ok.injEq] at hplace
  subst hplace
  rw [hcontent] at hfile
  cases hfile
  refine ⟨dir, name, target_of_dirs hdirs.2 ht, fun hd => hdir (hdirs.1.find? _ hd), hsame.workingDir,
    fun q => ?_⟩
  rw [find?_put _ (by simp), find?_put t (by simp), find?_drop u (by simp), find?_of_hasTemp hsame]
  split
  · rfl
  · split
    · rename_i heq
      rw [heq, hfind]
    · rfl

end FileTree

/-! ### Sound disks -/

variable {τ : Type} {d : Disk (StateM τ)} {tree : τ → FileTree} {a p : Path} {s s' : τ}

/-- An operation does what it does in a file tree, or fails and leaves the files alone. -/
def Attempts (tree : τ → FileTree) (f : FileTree → Except IoError FileTree)
    (x : StateM τ (Except IoError Unit)) : Prop :=
  ∀ s r s', x s = (r, s') → match r with
    | .ok () => f (tree s) = .ok (tree s')
    | .error _ => tree s' = tree s

/-- A disk whose operations do what they do in a file tree, unless they fail. -/
structure Disk.Sound (d : Disk (StateM τ)) (tree : τ → FileTree) : Prop where
  isDir : ∀ p s, tree (d.isDir p s).2 = tree s
  createDir : ∀ p, Attempts tree (·.createDir p) (d.createDir p)
  createTemp : ∀ a s r s', d.createTemp a s = (r, s') → match r with
    | .ok temp => (tree s).createNew temp = .ok (tree s')
    | .error _ => tree s' = tree s
  /-- A failure can leave the file with any contents. -/
  writeFile : ∀ p b s r s', d.writeFile p b s = (r, s') → match r with
    | .ok () => (tree s).writeFile p b = .ok (tree s')
    | .error _ => tree s' = tree s ∨ ∃ part, (tree s).writeFile p part = .ok (tree s')
  sync : ∀ p s, tree (d.sync p s).2 = tree s
  rename : ∀ p q, Attempts tree (·.rename p q) (d.rename p q)
  /-- A file that is there can be removed. -/
  removeFile : ∀ p s t', (tree s).removeFile p = .ok t' → tree (d.removeFile p s).2 = t'

namespace Disk.Sound

open FileTree

theorem growsBy_createDir (h : d.Sound tree) {r : Except IoError Unit} (hd : d.createDir p s = (r, s')) :
    (tree s).GrowsBy (tree s') p := by
  have hcreate := h.createDir p s r s' hd
  cases r with
  | ok => exact growsBy_of_createDir hcreate
  | error e =>
    rw [show tree s' = tree s from hcreate]
    exact .refl _ _

theorem ensureDir (h : d.Sound tree) (p : Path) (s : τ) :
    (tree s).GrowsBy (tree (d.ensureDir p s).2) p := by
  unfold Disk.ensureDir
  rw [bind_apply]
  have hgrows := h.growsBy_createDir (p := p) (s := s) rfl
  cases (d.createDir p s).1 with
  | ok => exact hgrows
  | error e =>
    simp only
    rw [bind_apply]
    have hsame := h.isDir p (d.createDir p s).2
    cases (d.isDir p (d.createDir p s).2).1 <;> exact hsame ▸ hgrows

theorem createDirAllFrom (h : d.Sound tree) (depth : Nat) (p : Path) (s : τ) :
    (tree s).GrowsBy (tree (d.createDirAllFrom depth p s).2) p := by
  induction depth generalizing p s with
  | zero => exact h.ensureDir p s
  | succ depth ih =>
    unfold Disk.createDirAllFrom
    split
    · exact .refl _ _
    · rw [bind_apply]
      have hgrows := h.growsBy_createDir (p := p) (s := s) rfl
      cases (d.createDir p s).1 with
      | ok => exact hgrows
      | error e =>
        simp only
        split
        · rw [bind_apply]
          have hsame := h.isDir p (d.createDir p s).2
          cases (d.isDir p (d.createDir p s).2).1 <;> exact hsame ▸ hgrows
        · cases hparent : p.parent? with
          | none => exact hgrows
          | some above =>
            simp only
            rw [bind_apply]
            have habove := hgrows.trans ((ih above (d.createDir p s).2).up hparent)
            cases (d.createDirAllFrom depth above (d.createDir p s).2).1 with
            | error e => exact habove
            | ok => exact habove.trans (h.ensureDir p _)

/-- **Creating directories.** All that happens is that directories on the way to a path are created. -/
theorem createDirAll (h : d.Sound tree) (p : Path) (s : τ) :
    (tree s).GrowsBy (tree (d.createDirAll p s).2) p :=
  h.createDirAllFrom _ p s

end Disk.Sound

/-! ### File trees are sound -/

namespace FileTree

theorem attempts_change (f : FileTree → Except IoError FileTree) : Attempts id f (change f) := by
  intro t r t' h
  simp only [change] at h
  split at h <;> cases h
  · assumption
  · rfl

/-- **A file tree** is a sound disk. -/
theorem disk_sound : disk.Sound id where
  isDir _ _ := rfl
  createDir p := attempts_change _
  createTemp a t r t' h := by
    simp only [disk] at h
    split at h <;> rename_i hr <;> cases h
    · exact createNew_of_createFirst hr
    · rfl
  writeFile p b t r t' h := by
    have hattempt := attempts_change (·.writeFile p b) t r t' h
    cases r with
    | ok => exact hattempt
    | error e => exact .inl hattempt
  sync _ _ := rfl
  rename p q := attempts_change _
  removeFile p t t' h := by
    simp only [disk, change, id] at h ⊢
    rw [h]

/-- What goes wrong with an operation. -/
structure Mishap where
  cause : IoError
  /-- How many bytes have been written by then. -/
  written : Nat := 0

section Unreliable

variable (mishap : Nat → Option Mishap)

/-- An operation of a number fails, or does what it does in a file tree; the next one has the next number. -/
def attempt {α : Type} (f : FileTree → Except IoError (α × FileTree)) :
    StateM (FileTree × Nat) (Except IoError α) := fun (t, n) =>
  match mishap n with
  | some e => (.error e.cause, (t, n + 1))
  | none =>
    match f t with
    | .ok (a, t') => (.ok a, (t', n + 1))
    | .error e => (.error e, (t, n + 1))

end Unreliable

end FileTree

end SnapStore
