import SnapStore.Disk

namespace SnapStore

/-!
# File systems as values

A file tree has files and directories at places, which are lists of names from the root down.  A path
leads to a place by way of the directories in between, all of which must be there.

* `FileTree.walk` follows the parts of a path, `FileTree.target` the directory that a path names an
  entry of, together with the name.
* `FileTree.disk` are the operations of a disk, with the failures of a Unix system.
* `FileTree.list?` and `FileTree.removeTree` look at and remove whole directories.
* `FileTree.perform` does what is done from outside, before or between the operations of a library.
-/

/-- The names that lead to an entry, from the root down. -/
abbrev Place := List Bytes

/-- What stands at a place. -/
inductive FileEntry
  | file (content : Bytes)
  | directory
  deriving DecidableEq, Repr

/-- A file system and the directory that relative paths start at.  The root is always there. -/
structure FileTree where
  entries : List (Place × FileEntry) := []
  workingDir : Place := []
  deriving Repr

namespace FileTree

/-- What stands at a place. -/
def find? (t : FileTree) (p : Place) : Option FileEntry :=
  if p = [] then some .directory else (t.entries.find? (·.1 = p)).map (·.2)

/-- Puts an entry at a place. -/
def put (t : FileTree) (p : Place) (e : FileEntry) : FileTree :=
  { t with entries := (p, e) :: t.entries.filter (·.1 ≠ p) }

/-- Takes away what stands at a place. -/
def drop (t : FileTree) (p : Place) : FileTree :=
  { t with entries := t.entries.filter (·.1 ≠ p) }

/-- An empty file system with the given working directory and those above it. -/
def empty (workingDir : Place) : FileTree where
  entries := (List.range workingDir.length).map fun n => (workingDir.take (n + 1), .directory)
  workingDir

/-- The longest name that a file can have, in bytes. -/
def nameLimit : Nat := 255

/-- The longest path that can be asked for, in bytes. -/
def pathLimit : Nat := 4095

/-- Follows one part of a path from the entry at a place, which must be a directory. -/
def follow (t : FileTree) (place : Place) (part : Bytes) : Except OsFailure Place :=
  if t.find? place ≠ some .directory then .error .notDirectory
  else if part = [] ∨ part = [Path.dot] then .ok place
  else if part = [Path.dot, Path.dot] then .ok place.dropLast
  else if nameLimit < part.length then .error .nameTooLong
  else if (t.find? (place ++ [part])).isNone then .error .notFound
  else .ok (place ++ [part])

/-- Follows parts of a path. -/
def walk (t : FileTree) (parts : List Bytes) (start : Place) : Except OsFailure Place :=
  parts.foldlM t.follow start

/-- The parts of a path and the place that they start at. -/
def open? (t : FileTree) (p : Path) : Except IoError (Place × List Bytes) :=
  if p.bytes.any (· = 0) then .error .nulInName
  else if p.bytes = [] then .error (.os .notFound)
  else if pathLimit < p.bytes.length then .error (.os .nameTooLong)
  else
    .ok (if p.isAbsolute then [] else t.workingDir, Path.splitSlashes p.bytes)

/-- A failure of the operating system as a file error. -/
def lift {α : Type} : Except OsFailure α → Except IoError α
  | .ok a => .ok a
  | .error e => .error (.os e)

/-- The place that a path leads to. -/
def resolve (t : FileTree) (p : Path) : Except IoError Place := do
  let (start, parts) ← t.open? p
  lift (t.walk parts start)

/-- The last part of a path. -/
inductive Last
  | /-- A name, and whether a slash follows it. -/ name (name : Bytes) (slash : Bool)
  | /-- One dot, two dots or the root. -/ special
  deriving DecidableEq, Repr

/-- The directory that a path names an entry of, and the entry. -/
def target (t : FileTree) (p : Path) : Except IoError (Place × Last) := do
  let (start, parts) ← t.open? p
  let back := parts.reverse
  match back.dropWhile (· = []) with
  | [] => pure (start, .special)
  | last :: above =>
    let dir ← lift (t.walk above.reverse start)
    if t.find? dir ≠ some .directory then throw (.os .notDirectory)
    if last = [Path.dot] ∨ last = [Path.dot, Path.dot] then pure (dir, .special)
    else if nameLimit < last.length then throw (.os .nameTooLong)
    else pure (dir, .name last (back.head? = some []))

/-! ### The operations of a disk -/

/-- The contents of the file that a path leads to. -/
def readFile (t : FileTree) (p : Path) : Except IoError Bytes := do
  match t.find? (← t.resolve p) with
  | some (.file content) => pure content
  | some .directory => throw (.os .isDirectory)
  | none => throw (.os .notFound)

/-- Whether a path leads to a directory. -/
def isDir (t : FileTree) (p : Path) : Bool :=
  match t.resolve p with
  | .ok place => t.find? place = some .directory
  | .error _ => false

/-- Creates a directory. -/
def createDir (t : FileTree) (p : Path) : Except IoError FileTree := do
  match ← t.target p with
  | (_, .special) => throw (.os .exists)
  | (dir, .name name _) =>
    if (t.find? (dir ++ [name])).isSome then throw (.os .exists)
    else pure (t.put (dir ++ [name]) .directory)

/-- Creates an empty file that is not there yet. -/
def createNew (t : FileTree) (p : Path) : Except IoError FileTree := do
  match ← t.target p with
  | (_, .special) => throw (.os .exists)
  | (dir, .name name slash) =>
    if (t.find? (dir ++ [name])).isSome then throw (.os .exists)
    else if slash then throw (.os .isDirectory)
    else pure (t.put (dir ++ [name]) (.file []))

/-- The name of the `n`-th temporary file, with six digits. -/
def tempName (n : Nat) : String :=
  ".tmp" ++ String.ofList ([5, 4, 3, 2, 1, 0].map fun place => Nat.digitChar (n / Nat.pow 10 place % 10))

/-- How many names are tried for a temporary file. -/
def tempAttempts : Nat := 65536

/-- Creates an empty file at the first of some paths that is not in use: at the `n`-th one, or at one of up
to `attempts - 1` later ones. -/
def createFirst (t : FileTree) (candidate : Nat → Path) (failure : IoError) :
    Nat → Nat → Except IoError (Path × FileTree)
  | 0, _ => throw failure
  | attempts + 1, n =>
    match t.createNew (candidate n) with
    | .ok t => pure (candidate n, t)
    | .error e =>
      if e = .os .exists then t.createFirst candidate failure attempts (n + 1) else throw e

/-- Creates an empty file of an unused name in a directory. -/
def createTemp (t : FileTree) (dir : Path) : Except IoError (Path × FileTree) :=
  t.createFirst (fun n => dir.join (.ofString (tempName n)))
    (.custom .other ("too many temporary files exist at path " ++ Text.quoteBytes dir.bytes)) tempAttempts 0

/-- Fills a file, which is created if it is not there. -/
def writeFile (t : FileTree) (p : Path) (content : Bytes) : Except IoError FileTree := do
  match ← t.target p with
  | (_, .special) => throw (.os .isDirectory)
  | (dir, .name name slash) =>
    let place := dir ++ [name]
    if slash ∨ t.find? place = some .directory then throw (.os .isDirectory)
    else pure (t.put place (.file content))

/-- Moves a file.  A null character in the new name is an invalid argument. -/
def rename (t : FileTree) (source dest : Path) : Except IoError FileTree := do
  let place ← t.resolve source
  if dest.bytes.any (· = 0) then throw (.os .invalidArgument)
  let content ← t.readFile source
  match ← t.target dest with
  | (_, .special) => throw (.os .busy)
  | (dir, .name name slash) =>
    if slash then throw (.os .notDirectory)
    else if t.find? (dir ++ [name]) = some .directory then throw (.os .isDirectory)
    else pure ((t.drop place).put (dir ++ [name]) (.file content))

/-- Removes a file. -/
def removeFile (t : FileTree) (p : Path) : Except IoError FileTree := do
  match ← t.target p with
  | (_, .special) => throw (.os .isDirectory)
  | (dir, .name name slash) =>
    match t.find? (dir ++ [name]) with
    | none => throw (.os .notFound)
    | some .directory => throw (.os .isDirectory)
    | some (.file _) => if slash then throw (.os .notDirectory) else pure (t.drop (dir ++ [name]))

/-- Carries out an operation that changes the tree unless it fails. -/
def change (f : FileTree → Except IoError FileTree) : StateM FileTree (Except IoError Unit) :=
  fun t => match f t with
    | .ok t => (.ok (), t)
    | .error e => (.error e, t)

/-- The path of the working directory. -/
def workingPath (t : FileTree) : Path := ⟨Path.slash :: Path.joinSlashes t.workingDir⟩

/-- A file tree as a disk. -/
def disk : Disk (StateM FileTree) where
  currentDir := fun t => (.ok t.workingPath, t)
  readFile p := fun t => (t.readFile p, t)
  isDir p := fun t => (t.isDir p, t)
  createDir p := change (·.createDir p)
  createTemp p := fun t => match t.createTemp p with
    | .ok (temp, t) => (.ok temp, t)
    | .error e => (.error e, t)
  writeFile p content := change (·.writeFile p content)
  sync _ := pure (.ok ())
  rename source dest := change (·.rename source dest)
  removeFile p := change (·.removeFile p)

/-! ### Whole directories -/

/-- The names in the directory that a path leads to, in ascending order. -/
def list? (t : FileTree) (p : Path) : Option (List Bytes) :=
  match t.resolve p with
  | .error _ => none
  | .ok place =>
    if t.find? place = some .directory then
      let names := t.entries.filterMap fun (q, _) =>
        if q.dropLast = place then q.getLast? else none
      some (names.mergeSort (· ≤ ·))
    else none

/-- Removes what a path leads to, with everything in it. -/
def removeTree (t : FileTree) (p : Path) : FileTree :=
  match t.resolve p with
  | .error _ => t
  | .ok place => { t with entries := t.entries.filter fun (q, _) => ! place.isPrefixOf q }

/-- Puts a file at a path, with the directories above it. -/
def plantFile (t : FileTree) (p : Path) (content : Bytes) : FileTree :=
  let t := match p.parent? with
    | some above => (disk.createDirAll above t).2
    | none => t
  (change (·.writeFile p content) t).2

/-- What can be done to a file system from outside. -/
inductive Chore
  | /-- Creates a directory and those above it. -/ makeDir (p : Path)
  | plantFile (p : Path) (content : Bytes)
  | removeTree (p : Path)
  | list (p : Path)
  deriving DecidableEq, Repr

/-- Does something to a file system; only a list of names has a result. -/
def perform (t : FileTree) : Chore → Option (List Bytes) × FileTree
  | .makeDir p => (none, (disk.createDirAll p t).2)
  | .plantFile p content => (none, t.plantFile p content)
  | .removeTree p => (none, t.removeTree p)
  | .list p => (t.list? p, t)

end FileTree

end SnapStore
