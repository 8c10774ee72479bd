import SnapStore.Slot
import SnapStore.Disk.Tree

namespace SnapStore

/-!
# Slots in files

A slot can be a file.  A new blob is written to a temporary file beside it, which then takes the place
of the old one in one step; whatever fails on the way, the temporary file goes and the old blob stays.

* `FileSlot.read`, `FileSlot.write` and `FileSlot.remove` work on any disk.
* `FileSlot.slot` is the slot of a file in a file tree.
-/

namespace FileSlot

variable {m : Type → Type} [Monad m]

/-- The directory of a file. -/
def parentDir (p : Path) : Path :=
  match p.parent? with
  | some above => if above.bytes = [] then ⟨[Path.dot]⟩ else above
  | none => ⟨[Path.dot]⟩

/-- The blob in a file, if the file is there. -/
def read (d : Disk m) (p : Path) : m (Except CacheError (Option Bytes)) := do
  match ← d.readFile p with
  | .ok b => pure (.ok (some b))
  | .error e =>
    if e.kind = .notFound then pure (.ok none)
    else pure (.error (.ioAt "read cache file" p e))

/-- Gives up a temporary file. -/
def abandon (d : Disk m) (temp : Path) (e : CacheError) : m (Except CacheError Unit) := do
  let _ ← d.removeFile temp
  pure (.error e)

/-- Fills a temporary file and puts it in the place of a file. -/
def replace (d : Disk m) (p temp : Path) (b : Bytes) : m (Except CacheError Unit) := do
  match ← d.writeFile temp b with
  | .error e => abandon d temp (.ioAt "write temp file" temp e)
  | .ok () =>
    match ← d.sync temp with
    | .error e => abandon d temp (.ioAt "sync temp file" temp e)
    | .ok () =>
      match ← d.rename temp p with
      | .error e => abandon d temp (.ioAt "finalize cache file" p e)
      | .ok () => pure (.ok ())

/-- Replaces the blob in a file. -/
def write (d : Disk m) (p : Path) (b : Bytes) : m (Except CacheError Unit) := do
  let dir := parentDir p
  match ← d.createDirAll dir with
  | .error e => pure (.error (.ioAt "create cache directory" dir e))
  | .ok () =>
    match ← d.createTemp dir with
    | .error e => pure (.error (.ioAt "create temp file in" dir e))
    | .ok temp => replace d p temp b

/-- Removes a file and tells whether it was there. -/
def remove (d : Disk m) (p : Path) : m (Except CacheError Bool) := do
  match ← d.removeFile p with
  | .ok () => pure (.ok true)
  | .error e =>
    if e.kind = .notFound then pure (.ok false)
    else pure (.error (.ioAt "remove cache file" p e))

/-- The slot of a file in a file tree. -/
def slot (p : Path) : Slot FileTree where
  read t := (read FileTree.disk p t).1
  write b t := write FileTree.disk p b t
  remove t := remove FileTree.disk p t
  location := p.display

end FileSlot

end SnapStore
