import SnapStore.Proofs.Path

namespace SnapStore.FileTree

/-!
# What the operations of a file tree do

A path names an entry of a directory, and all that decides about that is which directories there are.  So an
operation on files leaves alone what paths name.

* `Same` — two trees with the same entries.
* `Dirs` — one tree has the directories of another one; `target_of_dirs` — then its paths name the same
  entries.
* `createNew_eq_ok_iff`, `writeFile_eq_ok_iff`, `rename_eq_ok_iff` and `removeFile_eq_ok_iff` — when an
  operation goes well, and what becomes of the tree.
* `resolve_parentDir` — the directory that a path names an entry of is the one that its parent leads to.
* `exists_createTemp` — a temporary file can be created if that can be done in a tree with more files.
-/

variable {t t' : FileTree} {p : Path} {place q dir : Place} {name : Bytes} {slash : Bool}

/-! ### What stands where -/

@[simp] theorem find?_nil (t : FileTree) : t.find? [] = some .directory := rfl

theorem find?_filter_ne (entries : List (Place × FileEntry)) (hq : q ≠ place) :
    (entries.filter (·.1 ≠ place)).find? (·.1 = q) = entries.find? (·.1 = q) := by
  rw [List.find?_filter]
  congr 1
  funext x
  by_cases hx : x.1 = q <;> simp [hx, hq]

theorem find?_put (t : FileTree) (hplace : place ≠ []) (e : FileEntry) (q : Place) :
    (t.put place e).find? q = if q = place then some e else t.find? q := by
  unfold find? put
  by_cases hq : q = place
  · subst hq
    simp [hplace]
  · simp only [hq, if_false, List.find?_cons, Ne.symm hq, decide_false, find?_filter_ne t.entries hq]

theorem find?_drop (t : FileTree) (hplace : place ≠ []) (q : Place) :
    (t.drop place).find? q = if q = place then none else t.find? q := by
  unfold find? drop
  by_cases hq : q = place
  · subst hq
    simp [hplace]
  · simp only [hq, if_false, find?_filter_ne t.entries hq]

@[simp] theorem workingDir_put (t : FileTree) (place : Place) (e : FileEntry) :
    (t.put place e).workingDir = t.workingDir := rfl

@[simp] theorem workingDir_drop (t : FileTree) (place : Place) :
    (t.drop place).workingDir = t.workingDir := rfl

/-- Two trees with the same entries. -/
structure Same (t t' : FileTree) : Prop where
  workingDir : t'.workingDir = t.workingDir
  find? : ∀ q, t'.find? q = t.find? q

theorem Same.refl (t : FileTree) : t.Same t := ⟨rfl, fun _ => rfl⟩

/-- A tree has the directories of another one. -/
structure Dirs (t t' : FileTree) : Prop where
  workingDir : t'.workingDir = t.workingDir
  find? : ∀ q, t.find? q = some .directory → t'.find? q = some .directory

theorem Dirs.refl (t : FileTree) : t.Dirs t := ⟨rfl, fun _ h => h⟩

theorem Dirs.trans {t'' : FileTree} (h : t.Dirs t') (h' : t'.Dirs t'') : t.Dirs t'' :=
  ⟨h'.workingDir.trans h.workingDir, fun q hq => h'.find? q (h.find? q hq)⟩

theorem Same.dirs (h : t.Same t') : t.Dirs t' := ⟨h.workingDir, fun q hq => by rw [h.find?, hq]⟩

theorem Same.symm (h : t.Same t') : t'.Same t := ⟨h.workingDir.symm, fun q => (h.find? q).symm⟩

/-- An entry that is put where there is no directory takes no directory away. -/
theorem dirs_put (hplace : place ≠ []) (h : t.find? place ≠ some .directory) (e : FileEntry) :
    t.Dirs (t.put place e) where
  workingDir := rfl
  find? q hq := by
    have hne : q ≠ place := by
      rintro rfl
      exact h hq
    rw [find?_put t hplace, if_neg hne, hq]

/-- A file that is put somewhere adds no directory. -/
theorem dirs_of_put (hplace : place ≠ []) (content : Bytes) : (t.put place (.file content)).Dirs t where
  workingDir := rfl
  find? q hq := by
    rw [find?_put t hplace] at hq
    split at hq
    · cases hq
    · exact hq

theorem dirs_drop (hplace : place ≠ []) (h : t.find? place ≠ some .directory) : t.Dirs (t.drop place) where
  workingDir := rfl
  find? q hq := by
    have hne : q ≠ place := by
      rintro rfl
      exact h hq
    rw [find?_drop t hplace, if_neg hne, hq]

/-! ### Where a path leads -/

theorem walk_cons (part : Bytes) (parts : List Bytes) (start : Place) :
    t.walk (part :: parts) start = t.follow start part >>= t.walk parts := rfl

theorem walk_append (xs ys : List Bytes) (start : Place) :
    t.walk (xs ++ ys) start = t.walk xs start >>= t.walk ys := by
  simp only [walk, List.foldlM_append]
  rfl

/-- What it takes to follow a part, and where it leads. -/
theorem follow_eq_ok_iff {part : Bytes} : t.follow place part = .ok q ↔
    t.find? place = some .directory ∧
      ((part = [] ∨ part = [Path.dot]) ∧ q = place ∨
        part = [Path.dot, Path.dot] ∧ q = place.dropLast ∨
        (part ≠ [] ∧ part ≠ [Path.dot] ∧ part ≠ [Path.dot, Path.dot] ∧ part.length ≤ nameLimit) ∧
          (t.find? (place ++ [part])).isSome = true ∧ q = place ++ [part]) := by
  unfold follow
  by_cases hdir : t.find? place = some .directory
  · simp only [hdir, ne_eq, not_true_eq_false, if_false, true_and]
    by_cases hidle : part = [] ∨ part = [Path.dot]
    · rcases hidle with rfl | rfl <;> simp [@eq_comm _ place q]
    · rw [if_neg hidle]
      rw [not_or] at hidle
      by_cases hup : part = [Path.dot, Path.dot]
      · subst hup
        simp [@eq_comm _ place.dropLast q]
      · rw [if_neg hup]
        by_cases hsize : nameLimit < part.length
        · simp [hsize, hidle, hup, Nat.not_le.mpr hsize]
        · cases t.find? (place ++ [part]) <;>
            simp [hsize, hidle, hup, Nat.not_lt.mp hsize, @eq_comm _ (place ++ [part]) q]
  · simp [hdir]

/-- Whoever arrives at a directory has come through directories. -/
theorem find?_of_walk {parts : List Bytes} (h : t.walk parts place = .ok q)
    (hq : t.find? q = some .directory) : t.find? place = some .directory := by
  cases parts with
  | nil =>
    cases h
    exact hq
  | cons part parts =>
    rw [walk_cons, bind_eq_ok_iff] at h
    obtain ⟨r, hr, -⟩ := h
    exact (follow_eq_ok_iff.mp hr).1

theorem walk_of_dirs (h : t.Dirs t') {parts : List Bytes} (hwalk : t.walk parts place = .ok q)
    (hq : t.find? q = some .directory) : t'.walk parts place = .ok q := by
  induction parts generalizing place with
  | nil => exact hwalk
  | cons part parts ih =>
    rw [walk_cons, bind_eq_ok_iff] at hwalk ⊢
    obtain ⟨r, hr, hwalk⟩ := hwalk
    refine ⟨r, ?_, ih hwalk⟩
    have hrdir := h.find? r (find?_of_walk hwalk hq)
    obtain ⟨hdir, hcases⟩ := follow_eq_ok_iff.mp hr
    refine follow_eq_ok_iff.mpr ⟨h.find? _ hdir, hcases.imp_right (Or.imp_right ?_)⟩
    rintro ⟨hname, -, rfl⟩
    exact ⟨hname, by rw [hrdir]; rfl, rfl⟩

/-- Parts that mean nothing lead nowhere else, from a directory. -/
theorem walk_idle {parts : List Bytes} (hidle : ∀ part ∈ parts, part = [] ∨ part = [Path.dot])
    (hplace : t.find? place = some .directory) : t.walk parts place = .ok place := by
  induction parts with
  | nil => rfl
  | cons part parts ih =>
    rw [walk_cons, bind_eq_ok_iff]
    refine ⟨place, follow_eq_ok_iff.mpr ⟨hplace, .inl ⟨hidle part List.mem_cons_self, rfl⟩⟩, ?_⟩
    exact ih fun x hx => hidle x (List.mem_cons_of_mem _ hx)

theorem eq_of_walk_idle {parts : List Bytes} (hidle : ∀ part ∈ parts, part = [] ∨ part = [Path.dot])
    (h : t.walk parts place = .ok q) : q = place := by
  induction parts with
  | nil =>
    cases h
    rfl
  | cons part parts ih =>
    rw [walk_cons, bind_eq_ok_iff] at h
    obtain ⟨r, hr, h⟩ := h
    have hpart := hidle part List.mem_cons_self
    obtain ⟨-, ⟨-, rfl⟩ | ⟨rfl, -⟩ | ⟨⟨hne, hne', -⟩, -⟩⟩ := follow_eq_ok_iff.mp hr
    · exact ih (fun x hx => hidle x (List.mem_cons_of_mem _ hx)) h
    · simp at hpart
    · exact absurd hpart (by simp [hne, hne'])

/-! ### Paths -/

/-- A path that the operating system takes. -/
def Takes (p : Path) : Prop :=
  p.bytes.any (· = 0) = false ∧ p.bytes ≠ [] ∧ p.bytes.length ≤ pathLimit

/-- The place that a path starts at. -/
def startOf (t : FileTree) (p : Path) : Place := if p.isAbsolute then [] else t.workingDir

theorem open?_eq_ok_iff {x : Place × List Bytes} :
    t.open? p = .ok x ↔ Takes p ∧ x = (t.startOf p, p.parts) := by
  unfold open? Takes startOf Path.parts
  by_cases hnul : p.bytes.any (· = 0) = true
  · simp [hnul]
  · by_cases hempty : p.bytes = []
    · simp [hempty]
    · by_cases hsize : pathLimit < p.bytes.length
      · simp [hnul, hempty, hsize, Nat.not_le.mpr hsize]
      · simp [hnul, hempty, hsize, Nat.not_lt.mp hsize, @eq_comm _ _ x]

theorem lift_eq_ok_iff {α : Type} {x : Except OsFailure α} {a : α} : lift x = .ok a ↔ x = .ok a := by
  cases x <;> simp [lift]

theorem resolve_eq_ok_iff :
    t.resolve p = .ok q ↔ Takes p ∧ t.walk p.parts (t.startOf p) = .ok q := by
  unfold resolve
  rw [bind_eq_ok_iff]
  constructor
  · rintro ⟨x, hx, hwalk⟩
    obtain ⟨htakes, rfl⟩ := open?_eq_ok_iff.mp hx
    exact ⟨htakes, lift_eq_ok_iff.mp hwalk⟩
  · rintro ⟨htakes, hwalk⟩
    exact ⟨_, open?_eq_ok_iff.mpr ⟨htakes, rfl⟩, lift_eq_ok_iff.mpr hwalk⟩

/-- A path that cannot be followed to its end leads nowhere. -/
theorem resolve_of_walk_error {e : OsFailure} (htakes : Takes p)
    (hwalk : t.walk p.parts (t.startOf p) = .error e) : t.resolve p = .error (.os e) := by
  unfold resolve
  rw [open?_eq_ok_iff.mpr ⟨htakes, rfl⟩]
  show lift (t.walk p.parts (t.startOf p)) = _
  rw [hwalk]
  rfl

theorem target_of_dirs (h : t.Dirs t') {last : Last} (ht : t.target p = .ok (dir, last)) :
    t'.target p = .ok (dir, last) := by
  unfold target at ht ⊢
  rw [bind_eq_ok_iff] at ht ⊢
  obtain ⟨x, hx, ht⟩ := ht
  obtain ⟨htakes, rfl⟩ := open?_eq_ok_iff.mp hx
  have hstart : t'.startOf p = t.startOf p := by simp only [startOf, h.workingDir]
  refine ⟨_, open?_eq_ok_iff.mpr ⟨htakes, rfl⟩, ?_⟩
  rw [hstart]
  simp only at ht ⊢
  split at ht
  · exact ht
  · rename_i last above hback
    rw [bind_eq_ok_iff] at ht ⊢
    obtain ⟨d, hd, ht⟩ := ht
    by_cases hdir : t.find? d = some .directory
    · refine ⟨d, lift_eq_ok_iff.mpr (walk_of_dirs h (lift_eq_ok_iff.mp hd) hdir), ?_⟩
      rw [if_neg (not_not_intro hdir)] at ht
      rw [if_neg (not_not_intro (h.find? d hdir))]
      exact ht
    · rw [if_pos hdir] at ht
      cases ht

/-- The last of some parts that is not empty, with the parts in front of it and behind it. -/
theorem exists_of_dropWhile {parts above : List Bytes} {last : Bytes}
    (h : parts.reverse.dropWhile (· = []) = last :: above) :
    last ≠ [] ∧ ∃ k, parts = above.reverse ++ last :: List.replicate k [] := by
  constructor
  · rintro rfl
    have := List.head?_dropWhile_not (fun x => decide (x = [])) parts.reverse
    simp [h] at this
  · obtain ⟨k, hk⟩ : ∃ k, parts.reverse.takeWhile (· = []) = List.replicate k [] :=
      ⟨_, List.eq_replicate_of_mem fun x hx => by
        simpa using List.all_eq_true.mp List.all_takeWhile x hx⟩
    have hparts : parts.reverse = List.replicate k [] ++ last :: above := by
      rw [← hk, ← h, List.takeWhile_append_dropWhile]
    refine ⟨k, ?_⟩
    rw [← List.reverse_reverse parts, hparts]
    simp

theorem dropWhile_of_parts {last : Bytes} (hne : last ≠ []) (above : List Bytes) (k : Nat) :
    (above ++ last :: List.replicate k []).reverse.dropWhile (· = []) = last :: above.reverse := by
  rw [List.reverse_append, List.reverse_cons, List.reverse_replicate, List.append_assoc,
    List.dropWhile_append_of_pos (by simp)]
  simp [hne]

/-- Whether a slash follows the last name. -/
theorem head?_reverse_eq {above : List Bytes} {name : Bytes} (hne : name ≠ []) (k : Nat) :
    decide ((above ++ name :: List.replicate k []).reverse.head? = some []) = decide (k ≠ 0) := by
  cases k with
  | zero => simp [hne]
  | succ k => simp [List.replicate_succ']

/-- What it takes for a path to name an entry of a directory. -/
theorem target_eq_ok_iff : t.target p = .ok (dir, .name name slash) ↔
    Takes p ∧ ∃ above k, p.parts = above ++ name :: List.replicate k [] ∧
      (name ≠ [] ∧ name ≠ [Path.dot] ∧ name ≠ [Path.dot, Path.dot] ∧ name.length ≤ nameLimit) ∧
      t.walk above (t.startOf p) = .ok dir ∧ t.find? dir = some .directory ∧
      slash = decide (k ≠ 0) := by
  unfold target
  rw [bind_eq_ok_iff]
  constructor
  · rintro ⟨x, hx, ht⟩
    obtain ⟨htakes, rfl⟩ := open?_eq_ok_iff.mp hx
    refine ⟨htakes, ?_⟩
    simp only at ht
    split at ht
    · cases ht
    · rename_i last above hback
      rw [bind_eq_ok_iff] at ht
      obtain ⟨d, hd, ht⟩ := ht
      obtain ⟨hne, k, hk⟩ := exists_of_dropWhile hback
      by_cases hdir : t.find? d = some .directory
      · rw [if_neg (not_not_intro hdir)] at ht
        split at ht
        · cases ht
        · rename_i hdots
          rw [not_or] at hdots
          split at ht
          · cases ht
          · rename_i hsize
            cases ht
            exact ⟨above.reverse, k, hk, ⟨hne, hdots.1, hdots.2, Nat.not_lt.mp hsize⟩,
              lift_eq_ok_iff.mp hd, hdir, by rw [hk, head?_reverse_eq hne]⟩
      · rw [if_pos hdir] at ht
        cases ht
  · rintro ⟨htakes, above, k, hparts, ⟨hne, hdot, hup, hsize⟩, hwalk, hdir, rfl⟩
    refine ⟨_, open?_eq_ok_iff.mpr ⟨htakes, rfl⟩, ?_⟩
    simp only [hparts, dropWhile_of_parts hne, List.reverse_reverse]
    rw [bind_eq_ok_iff]
    refine ⟨dir, lift_eq_ok_iff.mpr hwalk, ?_⟩
    rw [if_neg (not_not_intro hdir), if_neg (by simp [hdot, hup]), if_neg (Nat.not_lt.mpr hsize),
      head?_reverse_eq hne]
    rfl

/-- A path of empty parts leads to where it starts. -/
theorem target_of_empty (htakes : Takes p) (hparts : p.parts.reverse.dropWhile (· = []) = []) :
    t.target p = .ok (t.startOf p, .special) := by
  unfold target
  rw [bind_eq_ok_iff]
  refine ⟨_, open?_eq_ok_iff.mpr ⟨htakes, rfl⟩, ?_⟩
  simp only [hparts]
  rfl

/-- A path that ends in dots names no entry. -/
theorem target_of_dots {above : List Bytes} {last : Bytes} {k : Nat} (htakes : Takes p)
    (hparts : p.parts = above ++ last :: List.replicate k [])
    (hdots : last = [Path.dot] ∨ last = [Path.dot, Path.dot])
    (hwalk : t.walk above (t.startOf p) = .ok dir) (hdir : t.find? dir = some .directory) :
    t.target p = .ok (dir, .special) := by
  have hne : last ≠ [] := by
    rintro rfl
    simp at hdots
  unfold target
  rw [bind_eq_ok_iff]
  refine ⟨_, open?_eq_ok_iff.mpr ⟨htakes, rfl⟩, ?_⟩
  simp only [hparts, dropWhile_of_parts hne, List.reverse_reverse]
  rw [bind_eq_ok_iff]
  refine ⟨dir, lift_eq_ok_iff.mpr hwalk, ?_⟩
  rw [if_neg (not_not_intro hdir), if_pos hdots]
  rfl

/-- A path whose way to the last name fails names no entry. -/
theorem target_of_walk_error {above : List Bytes} {last : Bytes} {k : Nat} {e : OsFailure}
    (htakes : Takes p) (hparts : p.parts = above ++ last :: List.replicate k []) (hne : last ≠ [])
    (hwalk : t.walk above (t.startOf p) = .error e) : t.target p = .error (.os e) := by
  unfold target
  rw [open?_eq_ok_iff.mpr ⟨htakes, rfl⟩]
  simp only [bind, Except.bind, hparts, dropWhile_of_parts hne, List.reverse_reverse, hwalk, lift]

/-- A path leads nowhere if the directory that it names an entry of is missing. -/
theorem resolve_of_target_error {e : IoError} (h : t.target p = .error e) (hkind : e.kind = .notFound) :
    t.resolve p = .error (.os .notFound) := by
  cases hopen : t.open? p with
  | error e' =>
    unfold target at h
    rw [hopen] at h
    cases h
    unfold resolve
    rw [hopen]
    unfold open? at hopen
    -- of the paths that cannot be opened, only the empty one is said to be missing
    split at hopen
    · cases hopen
      cases hkind
    · split at hopen
      · cases hopen
        rfl
      · split at hopen <;> cases hopen
        cases hkind
  | ok x =>
    obtain ⟨htakes, rfl⟩ := open?_eq_ok_iff.mp hopen
    cases hback : p.parts.reverse.dropWhile (· = []) with
    | nil =>
      rw [target_of_empty htakes hback] at h
      cases h
    | cons last above =>
      obtain ⟨hne, k, hparts⟩ := exists_of_dropWhile hback
      cases hwalk : t.walk above.reverse (t.startOf p) with
      | error e' =>
        rw [target_of_walk_error htakes hparts hne hwalk] at h
        cases h
        have hmissing : e' = .notFound := by cases e' <;> first | rfl | cases hkind
        refine resolve_of_walk_error htakes ?_
        rw [hparts, walk_append, hwalk, hmissing]
        rfl
      | ok dir =>
        -- once the directory is found, a path that names no entry is not said to be missing
        unfold target at h
        rw [hopen] at h
        simp only [bind, Except.bind, hback, hwalk, lift] at h
        split at h
        · cases h
          cases hkind
        · split at h
          · cases h
          · split at h <;> cases h
            cases hkind

/-- A path that names an entry leads to it, if the entry is there; only a directory can be followed by a
slash. -/
theorem resolve_of_target {e : FileEntry} (ht : t.target p = .ok (dir, .name name slash))
    (he : t.find? (dir ++ [name]) = some e) (hslash : slash = false ∨ e = .directory) :
    t.resolve p = .ok (dir ++ [name]) := by
  obtain ⟨htakes, above, k, hparts, hname, hwalk, hdir, rfl⟩ := target_eq_ok_iff.mp ht
  refine resolve_eq_ok_iff.mpr ⟨htakes, ?_⟩
  have hfollow : t.follow dir name = .ok (dir ++ [name]) :=
    follow_eq_ok_iff.mpr ⟨hdir, .inr (.inr ⟨hname, by rw [he]; rfl, rfl⟩)⟩
  rw [hparts, walk_append, hwalk]
  show t.follow dir name >>= t.walk (List.replicate k []) = _
  rw [hfollow]
  show t.walk (List.replicate k []) (dir ++ [name]) = _
  rcases hslash with hk | rfl
  · simp only [decide_eq_false_iff_not, not_not] at hk
    rw [hk]
    rfl
  · exact walk_idle (fun part hpart => .inl (List.eq_of_mem_replicate hpart)) he

/-! ### The operations -/

theorem readFile_eq_ok_iff {content : Bytes} : t.readFile p = .ok content ↔
    ∃ q, t.resolve p = .ok q ∧ t.find? q = some (.file content) := by
  unfold readFile
  rw [bind_eq_ok_iff]
  refine exists_congr fun q => and_congr_right fun _ => ?_
  cases t.find? q with
  | none => simp [throw, throwThe, MonadExceptOf.throw]
  | some e => cases e <;> simp [throw, throwThe, MonadExceptOf.throw, pure, Except.pure]

theorem createDir_eq_ok_iff : t.createDir p = .ok t' ↔
    ∃ dir name slash, t.target p = .ok (dir, .name name slash) ∧ t.find? (dir ++ [name]) = none ∧
      t' = t.put (dir ++ [name]) .directory := by
  unfold createDir
  rw [bind_eq_ok_iff]
  constructor
  · rintro ⟨⟨dir, last⟩, ht, h⟩
    cases last with
    | special => cases h
    | name name slash =>
      cases hfind : t.find? (dir ++ [name]) <;> simp only [hfind] at h <;> cases h
      exact ⟨dir, name, slash, ht, hfind, rfl⟩
  · rintro ⟨dir, name, slash, ht, hfind, rfl⟩
    refine ⟨_, ht, ?_⟩
    simp only [hfind]
    rfl

theorem createNew_eq_ok_iff : t.createNew p = .ok t' ↔
    ∃ dir name, t.target p = .ok (dir, .name name false) ∧ t.find? (dir ++ [name]) = none ∧
      t' = t.put (dir ++ [name]) (.file []) := by
  unfold createNew
  rw [bind_eq_ok_iff]
  constructor
  · rintro ⟨⟨dir, last⟩, ht, h⟩
    cases last with
    | special => cases h
    | name name slash =>
      cases hfind : t.find? (dir ++ [name]) <;> cases slash <;> simp only [hfind] at h <;> cases h
      exact ⟨dir, name, ht, hfind, rfl⟩
  · rintro ⟨dir, name, ht, hfind, rfl⟩
    refine ⟨_, ht, ?_⟩
    simp only [hfind]
    rfl

theorem writeFile_eq_ok_iff {content : Bytes} : t.writeFile p content = .ok t' ↔
    ∃ dir name, t.target p = .ok (dir, .name name false) ∧ t.find? (dir ++ [name]) ≠ some .directory ∧
      t' = t.put (dir ++ [name]) (.file content) := by
  unfold writeFile
  rw [bind_eq_ok_iff]
  constructor
  · rintro ⟨⟨dir, last⟩, ht, h⟩
    cases last with
    | special => cases h
    | name name slash =>
      by_cases hrefused : slash = true ∨ t.find? (dir ++ [name]) = some .directory
      · simp only [if_pos hrefused] at h
        cases h
      · simp only [if_neg hrefused] at h
        cases h
        rw [not_or, Bool.not_eq_true] at hrefused
        obtain ⟨rfl, hfind⟩ := hrefused
        exact ⟨dir, name, ht, hfind, rfl⟩
  · rintro ⟨dir, name, ht, hfind, rfl⟩
    refine ⟨_, ht, ?_⟩
    simp only [hfind]
    rfl

theorem removeFile_eq_ok_iff : t.removeFile p = .ok t' ↔
    ∃ dir name content, t.target p = .ok (dir, .name name false) ∧
      t.find? (dir ++ [name]) = some (.file content) ∧ t' = t.drop (dir ++ [name]) := by
  unfold removeFile
  rw [bind_eq_ok_iff]
  constructor
  · rintro ⟨⟨dir, last⟩, ht, h⟩
    cases last with
    | special => cases h
    | name name slash =>
      simp only at h
      split at h
      · cases h
      · cases h
      · cases slash <;> cases h
        exact ⟨dir, name, _, ht, ‹_›, rfl⟩
  · rintro ⟨dir, name, content, ht, hfind, rfl⟩
    refine ⟨_, ht, ?_⟩
    simp only [hfind]
    rfl

theorem rename_eq_ok_iff {source dest : Path} : t.rename source dest = .ok t' ↔
    ∃ place content dir name, t.resolve source = .ok place ∧ t.find? place = some (.file content) ∧
      t.target dest = .ok (dir, .name name false) ∧ t.find? (dir ++ [name]) ≠ some .directory ∧
      t' = (t.drop place).put (dir ++ [name]) (.file content) := by
  unfold rename
  rw [bind_eq_ok_iff]
  constructor
  · rintro ⟨place, hplace, h⟩
    by_cases hnul : dest.bytes.any (· = 0) = true
    · rw [if_pos hnul] at h
      cases h
    · rw [if_neg hnul, bind_eq_ok_iff] at h
      obtain ⟨content, hcontent, h⟩ := h
      obtain ⟨q, hq, hfind⟩ := readFile_eq_ok_iff.mp hcontent
      rw [hplace, Except.ok.injEq] at hq
      subst hq
      rw [bind_eq_ok_iff] at h
      obtain ⟨⟨dir, last⟩, ht, h⟩ := h
      cases last with
      | special => cases h
      | name name slash =>
        cases slash with
        | true => cases h
        | false =>
          by_cases hdir : t.find? (dir ++ [name]) = some .directory
          · simp only [if_pos hdir] at h
            cases h
          · simp only [if_neg hdir] at h
            cases h
            exact ⟨place, content, dir, name, hplace, hfind, ht, hdir, rfl⟩
  · rintro ⟨place, content, dir, name, hplace, hfind, ht, hdir, rfl⟩
    refine ⟨place, hplace, ?_⟩
    obtain ⟨⟨hnul, -⟩, -⟩ := target_eq_ok_iff.mp ht
    rw [if_neg (by rw [hnul]; decide), bind_eq_ok_iff]
    refine ⟨content, readFile_eq_ok_iff.mpr ⟨place, hplace, hfind⟩, ?_⟩
    rw [bind_eq_ok_iff]
    refine ⟨_, ht, ?_⟩
    simp only [if_neg hdir]
    rfl

/-! ### The directory of a file -/

/-- A path that is written as the beginning of another one is taken if that one is. -/
theorem takes_of_isPrefix {a : Path} (h : Takes p) (hne : a.bytes ≠ [])
    (hbegins : a.bytes <+: p.bytes) : Takes a := by
  obtain ⟨hnul, -, hsize⟩ := h
  obtain ⟨rest, hrest⟩ := hbegins
  refine ⟨?_, hne, ?_⟩
  · rw [← hrest, List.any_append, Bool.or_eq_false_iff] at hnul
    exact hnul.1
  · rw [← hrest, List.length_append] at hsize
    omega

/-- **The parent of a path** leads to the directory that the path names an entry of. -/
theorem resolve_parentDir (ht : t.target p = .ok (dir, .name name slash)) :
    t.resolve (FileSlot.parentDir p) = .ok dir := by
  obtain ⟨⟨hnul, hempty, hsize⟩, above, k, hparts, ⟨hne, hdot, -⟩, hwalk, hdir, -⟩ :=
    target_eq_ok_iff.mp ht
  have hlastName := Path.isIdle_eq_false_iff.mpr ⟨hne, hdot⟩
  have hidleParts : ∀ x ∈ List.replicate k ([] : Bytes), Path.isIdle x = true := by
    intro x hx
    rw [List.eq_of_mem_replicate hx]
    rfl
  obtain ⟨front, gone, more, rfl, hdirParts, hgone, hmore, habsolute, hdirNe, hwritten⟩ :=
    FileSlot.exists_parts_parentDir hparts hlastName hidleParts
  refine resolve_eq_ok_iff.mpr ⟨?_, ?_⟩
  · rcases hwritten with hbegins | hcurrent
    · exact takes_of_isPrefix ⟨hnul, hempty, hsize⟩ hdirNe hbegins
    · rw [Takes, hcurrent]
      decide
  · have hstart : t.startOf (FileSlot.parentDir p) = t.startOf p := by simp only [startOf, habsolute]
    rw [walk_append, bind_eq_ok_iff] at hwalk
    obtain ⟨d, hd, hback⟩ := hwalk
    obtain rfl := eq_of_walk_idle (fun x hx => Path.isIdle_iff.mp (hgone x hx)) hback
    rw [Path.parts, hdirParts, walk_append, hstart, hd]
    exact walk_idle (fun x hx => Path.isIdle_iff.mp (hmore x hx)) hdir

/-- A path that leads somewhere names an entry that is there, or none. -/
theorem target_of_resolve (h : t.resolve p = .ok place) :
    (∃ dir, t.target p = .ok (dir, .special)) ∨
      ∃ dir name slash, t.target p = .ok (dir, .name name slash) ∧
        (t.find? (dir ++ [name])).isSome = true := by
  obtain ⟨htakes, hwalk⟩ := resolve_eq_ok_iff.mp h
  cases hback : p.parts.reverse.dropWhile (· = []) with
  | nil => exact .inl ⟨_, target_of_empty htakes hback⟩
  | cons last above =>
    obtain ⟨hne, k, hparts⟩ := exists_of_dropWhile hback
    rw [hparts, walk_append, bind_eq_ok_iff] at hwalk
    obtain ⟨dir, hdir, hlast⟩ := hwalk
    rw [walk_cons, bind_eq_ok_iff] at hlast
    obtain ⟨q, hq, -⟩ := hlast
    obtain ⟨hdirectory, ⟨rfl | rfl, -⟩ | ⟨rfl, -⟩ | ⟨hname, hfind, -⟩⟩ := follow_eq_ok_iff.mp hq
    · exact absurd rfl hne
    · exact .inl ⟨dir, target_of_dots htakes hparts (.inl rfl) hdir hdirectory⟩
    · exact .inl ⟨dir, target_of_dots htakes hparts (.inr rfl) hdir hdirectory⟩
    · exact .inr ⟨dir, last, _, target_eq_ok_iff.mpr
        ⟨htakes, above.reverse, k, hparts, hname, hdir, hdirectory, rfl⟩, hfind⟩

/-- Nothing can be created where a path leads somewhere. -/
theorem createDir_of_resolve (h : t.resolve p = .ok place) : t.createDir p = .error (.os .exists) := by
  unfold createDir
  rcases target_of_resolve h with ⟨dir, ht⟩ | ⟨dir, name, slash, ht, hfind⟩
  · rw [ht]
    rfl
  · rw [ht]
    simp only [bind, Except.bind, hfind, if_true]
    rfl

theorem bind_apply {σ α β : Type} (x : StateM σ α) (f : α → StateM σ β) (s : σ) :
    (x >>= f) s = f (x s).1 (x s).2 := rfl

theorem readFile_disk (p : Path) (t : FileTree) : disk.readFile p t = (t.readFile p, t) := rfl

/-- **The directory of a file is there.** Creating it changes nothing. -/
theorem createDirAll_of_resolve (h : t.resolve p = .ok place) (hplace : t.find? place = some .directory) :
    disk.createDirAll p t = (.ok (), t) := by
  have hne : p.bytes ≠ [] := (resolve_eq_ok_iff.mp h).1.2.1
  have hcreate : disk.createDir p t = (.error (.os .exists), t) := by
    simp only [disk, change, createDir_of_resolve h]
  have hdir : disk.isDir p t = (true, t) := by
    simp only [disk, isDir, h, hplace, decide_true]
  unfold Disk.createDirAll Disk.createDirAllFrom
  rw [if_neg hne, bind_apply, hcreate]
  simp only
  rw [if_pos (by decide), bind_apply, hdir]
  rfl

/-! ### Temporary files -/

theorem walk_ne_exists (parts : List Bytes) (start : Place) : t.walk parts start ≠ .error .exists := by
  induction parts generalizing start with
  | nil => exact fun h => by cases h
  | cons part parts ih =>
    intro h
    rw [walk_cons] at h
    cases hf : t.follow start part with
    | ok q =>
      rw [hf] at h
      exact ih q h
    | error e =>
      rw [hf] at h
      cases h
      unfold follow at hf
      repeat' split at hf
      all_goals cases hf

/-- Whether there is an entry is not asked when a path is followed. -/
theorem target_ne_exists (p : Path) : t.target p ≠ .error (.os .exists) := by
  intro h
  unfold target at h
  cases hopen : t.open? p with
  | error e =>
    rw [hopen] at h
    cases h
    unfold open? at hopen
    repeat' split at hopen
    all_goals cases hopen
  | ok x =>
    rw [hopen] at h
    simp only [bind, Except.bind] at h
    split at h
    · cases h
    · cases hwalk : t.walk _ x.1 with
      | error e =>
        rw [hwalk] at h
        cases h
        exact walk_ne_exists _ _ hwalk
      | ok dir =>
        rw [hwalk] at h
        simp only [lift] at h
        by_cases hdir : t.find? dir = some .directory
        · rw [if_neg (not_not_intro hdir)] at h
          repeat' split at h
          all_goals cases h
        · rw [if_pos hdir] at h
          cases h

/-- A temporary file has a name. -/
theorem isName_tempName (n : Nat) : Path.IsName (Bytes.ofString (tempName n)) := by
  have hdigit {k : Nat} (hk : k < 10) : Nat.digitChar k ≠ '/' := by decide +revert
  have htext : (tempName n).toList = ['.', 't', 'm', 'p'] ++
      [5, 4, 3, 2, 1, 0].map fun place => Nat.digitChar (n / Nat.pow 10 place % 10) := by
    simp only [tempName, String.toList_append, String.toList_ofList]
    rfl
  refine .ofString ?_ ?_ ?_ ?_
  · rw [htext, List.mem_append, not_or]
    refine ⟨by decide, fun h => ?_⟩
    obtain ⟨place, -, hplace⟩ := List.mem_map.mp h
    exact hdigit (Nat.mod_lt _ (by decide)) hplace
  all_goals
    intro h
    rw [h] at htext
    cases htext

/-- A path to a temporary file has no slash at its end. -/
theorem slash_of_tempName {a : Path} {n : Nat}
    (ht : t.target (a.join (.ofString (tempName n))) = .ok (dir, .name name slash)) : slash = false := by
  have hname := isName_tempName n
  obtain ⟨-, above, k, hparts, -, -, -, rfl⟩ := target_eq_ok_iff.mp ht
  cases k with
  | zero => rfl
  | succ k =>
    rw [List.replicate_succ', ← List.cons_append, ← List.append_assoc] at hparts
    have hlast := Path.getLast?_of_parts hparts (by simp)
    rw [Path.getLast?_join a (show (Path.ofString (tempName n)).bytes ≠ [] from hname.ne_empty)] at hlast
    exact absurd (List.mem_of_getLast? hlast) hname.no_slash

/-- A file that has been created at one of some paths is new. -/
theorem createNew_of_createFirst {candidate : Nat → Path} {failure : IoError} {attempts n : Nat}
    {temp : Path} (h : t.createFirst candidate failure attempts n = .ok (temp, t')) :
    t.createNew temp = .ok t' := by
  induction attempts generalizing n with
  | zero => cases h
  | succ attempts ih =>
    rw [createFirst] at h
    split at h
    · rename_i hnew
      cases h
      exact hnew
    · split at h
      · exact ih h
      · cases h

section Fuller

variable {fuller : FileTree}

theorem exists_createNew (hdirs : fuller.Dirs t) (hfree : ∀ q, fuller.find? q = none → t.find? q = none)
    (h : ∃ u, fuller.createNew p = .ok u) : ∃ u, t.createNew p = .ok u := by
  obtain ⟨u, hu⟩ := h
  obtain ⟨dir, name, ht, hfind, -⟩ := createNew_eq_ok_iff.mp hu
  exact ⟨_, createNew_eq_ok_iff.mpr ⟨dir, name, target_of_dirs hdirs ht, hfree _ hfind, rfl⟩⟩

/-- A name that is in use in one tree may be in use in another one, but nothing else keeps it from being
used. -/
theorem createNew_of_exists (hdirs : fuller.Dirs t)
    (hslash : ∀ dir name slash, t.target p = .ok (dir, .name name slash) → slash = false)
    (h : fuller.createNew p = .error (.os .exists)) :
    (∃ u, t.createNew p = .ok u) ∨ t.createNew p = .error (.os .exists) := by
  cases ht : fuller.target p with
  | error e =>
    rw [createNew, ht] at h
    cases h
    exact absurd ht (target_ne_exists _)
  | ok x =>
    obtain ⟨dir, last⟩ := x
    have ht' := target_of_dirs hdirs ht
    cases last with
    | special =>
      refine .inr ?_
      rw [createNew, ht']
      rfl
    | name name slash =>
      obtain rfl := hslash _ _ _ ht'
      cases hfind : t.find? (dir ++ [name]) with
      | none => exact .inl ⟨_, createNew_eq_ok_iff.mpr ⟨dir, name, ht', hfind, rfl⟩⟩
      | some e =>
        refine .inr ?_
        rw [createNew, ht']
        simp only [bind, Except.bind, hfind]
        rfl

theorem exists_createFirst (hdirs : fuller.Dirs t)
    (hfree : ∀ q, fuller.find? q = none → t.find? q = none) {candidate : Nat → Path} {failure : IoError}
    (hslash : ∀ n dir name slash, t.target (candidate n) = .ok (dir, .name name slash) → slash = false)
    {attempts n : Nat} (h : ∃ x, fuller.createFirst candidate failure attempts n = .ok x) :
    ∃ x, t.createFirst candidate failure attempts n = .ok x := by
  induction attempts generalizing n with
  | zero =>
    obtain ⟨x, hx⟩ := h
    cases hx
  | succ attempts ih =>
    obtain ⟨x, hx⟩ := h
    rw [createFirst] at hx ⊢
    cases hnew : t.createNew (candidate n) with
    | ok u => exact ⟨_, rfl⟩
    | error e =>
      -- then the fuller tree uses the name as well, and goes on
      cases hf : fuller.createNew (candidate n) with
      | ok u =>
        obtain ⟨v, hv⟩ := exists_createNew hdirs hfree ⟨u, hf⟩
        rw [hv] at hnew
        cases hnew
      | error e' =>
        rw [hf] at hx
        simp only at hx ⊢
        split at hx
        · rename_i he'
          subst he'
          rcases createNew_of_exists hdirs (hslash n) hf with ⟨v, hv⟩ | hexists
          · rw [hv] at hnew
            cases hnew
          · rw [hexists] at hnew
            cases hnew
            rw [if_pos rfl]
            exact ih ⟨x, hx⟩
        · cases hx

/-- **Room beside more files.** A temporary file can be created if that can be done in a tree with more
entries and no other directories. -/
theorem exists_createTemp (hdirs : fuller.Dirs t) (hfree : ∀ q, fuller.find? q = none → t.find? q = none)
    {a : Path} (h : ∃ x, fuller.createTemp a = .ok x) : ∃ x, t.createTemp a = .ok x :=
  exists_createFirst hdirs hfree (fun _ _ _ _ => slash_of_tempName) h

end Fuller

end SnapStore.FileTree
