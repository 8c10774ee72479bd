import SnapStore.Error

namespace SnapStore

/-!
# Disks

What this library asks of a file system, as operations in a monad, so that one and the same code runs
on the files of the machine and on a file system that is a value.

* `Disk` are the operations; each of them fails with the cause alone, and callers add what they
  attempted.
* `Disk.createDirAll` creates a directory and those above it.
-/

/-- The operations of a file system. -/
structure Disk (m : Type → Type) where
  /-- The directory that relative paths start at. -/
  currentDir : m (Except IoError Path)
  /-- The contents of a file. -/
  readFile : Path → m (Except IoError Bytes)
  /-- Whether a path leads to a directory. -/
  isDir : Path → m Bool
  /-- Creates a directory in one that is there. -/
  createDir : Path → m (Except IoError Unit)
  /-- Creates an empty file of an unused name in a directory. -/
  createTemp : Path → m (Except IoError Path)
  /-- Fills a file. -/
  writeFile : Path → Bytes → m (Except IoError Unit)
  /-- Makes the contents of a file durable. -/
  sync : Path → m (Except IoError Unit)
  /-- Moves a file to another place, in one step, in place of the file that is there. -/
  rename : Path → Path → m (Except IoError Unit)
  /-- Removes a file. -/
  removeFile : Path → m (Except IoError Unit)

namespace Disk

variable {m : Type → Type} [Monad m]

/-- Creates a directory that may be there already. -/
def ensureDir (d : Disk m) (p : Path) : m (Except IoError Unit) := do
  match ← d.createDir p with
  | .ok () => pure (.ok ())
  | .error e => if ← d.isDir p then pure (.ok ()) else pure (.error e)

/-- Creates a directory and those above it, at most `depth` of them. -/
def createDirAllFrom (d : Disk m) : Nat → Path → m (Except IoError Unit)
  | 0, p => d.ensureDir p
  | depth + 1, p => do
    if p.bytes = [] then return .ok ()
    match ← d.createDir p with
    | .ok () => pure (.ok ())
    | .error e =>
      if e.kind ≠ .notFound then
        if ← d.isDir p then pure (.ok ()) else pure (.error e)
      else
        match p.parent? with
        | none => pure (.error e)
        | some above =>
          match ← createDirAllFrom d depth above with
          | .error e => pure (.error e)
          | .ok () => d.ensureDir p

/-- Creates a directory and those above it. -/
def createDirAll (d : Disk m) (p : Path) : m (Except IoError Unit) :=
  d.createDirAllFrom (p.bytes.length + 1) p

end Disk

end SnapStore
