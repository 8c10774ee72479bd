import SnapStore.Inspect.Command

namespace SnapStore

/-!
# The command line

The tool on the files and the environment of the machine.

* `machineDisk` are the files, `machineEnvironment` the variables that the tool looks at.
* `main` carries out the command line.
-/

/-- The number of a failure, which can also be given as its negative, modulo `2 ^ 32`. -/
def failureCode (code : UInt32) : Nat := if code < 0x80000000 then code.toNat else (-code).toNat

/-- What a failure of the machine is to this library. -/
def machineFailure : IO.Error → IoError
  | .alreadyExists _ code text | .otherError code text | .resourceBusy code text
  | .resourceVanished code text | .unsupportedOperation code text | .hardwareFault code text
  | .unsatisfiedConstraints code text | .illegalOperation code text | .protocolError code text
  | .timeExpired code text | .interrupted _ code text | .noFileOrDirectory _ code text
  | .invalidArgument _ code text | .permissionDenied _ code text | .resourceExhausted _ code text
  | .inappropriateType _ code text | .noSuchThing _ code text =>
    .os (.ofCode (failureCode code) text)
  | .unexpectedEof => .custom .other "unexpected end of file"
  | .userError text => .custom .other text

/-- Carries out an operation of the machine. -/
def attempt {α : Type} (act : IO α) : IO (Except IoError α) := do
  match ← act.toBaseIO with
  | .ok a => pure (.ok a)
  | .error e => pure (.error (machineFailure e))

/-- Carries out an operation of the machine on a path, which must be a text. -/
def attemptAt {α : Type} (p : Path) (act : String → IO α) : IO (Except IoError α) :=
  match p.text? with
  | some name => attempt (act name)
  | none => pure (.error (.os .invalidArgument))

/-- Fills a file. -/
def fill (mode : IO.FS.Mode) (p : Path) (content : Bytes) : IO (Except IoError Unit) :=
  attemptAt p fun name => IO.FS.withFile name mode fun h => h.write ⟨content.toArray⟩

/-- The files of the machine. -/
def machineDisk : Disk IO where
  currentDir := attempt do
    let dir ← IO.currentDir
    pure (.ofString dir.toString)
  readFile p := attemptAt p fun name => do
    let content ← IO.FS.readBinFile name
    pure content.data.toList
  isDir p := do
    match ← attemptAt p fun name => IO.FS.realPath name with
    | .ok place => place.isDir
    | .error _ => pure false
  createDir p := attemptAt p fun name => IO.FS.createDir name
  createTemp dir := do
    let number ← IO.rand 0 (Nat.pow 2 60)
    let temp := dir.join (.ofString (".tmp" ++ toString number))
    let r ← fill .writeNew temp []
    pure (r.map fun _ => temp)
  writeFile p content := fill .write p content
  sync _ := pure (.ok ())
  rename source dest := do
    match dest.text? with
    | some target => attemptAt source fun name => IO.FS.rename name target
    | none => pure (.error (.os .invalidArgument))
  removeFile p := attemptAt p fun name => IO.FS.removeFile name

/-- The words of a line of the list of users or of the state of a process. -/
def cells (mark : Char) (line : String) : List String := line.splitToList (· = mark)

/-- The home directory of the user in the list of users, if it has one there. -/
def listedHome : IO (Option Path) := do
  match ← attempt (IO.FS.readFile "/proc/self/status"), ← attempt (IO.FS.readFile "/etc/passwd") with
  | .ok status, .ok users =>
    let user := (cells '\n' status).findSome? fun line =>
      match cells '\t' line with
      | "Uid:" :: user :: _ => some user
      | _ => none
    let home := (cells '\n' users).findSome? fun line =>
      match cells ':' line with
      | [_, _, number, _, _, home, _] => if some number = user ∧ home ≠ "" then some home else none
      | _ => none
    pure (home.map Path.ofString)
  | _, _ => pure none

/-- The variables that the tool looks at, those that an environment file may refer to, and the place for
caches. -/
def machineEnvironment : IO Environment := do
  let own := ["HOME", "XDG_CACHE_HOME", "CLICOLOR_FORCE", "NO_COLOR", Config.dirVariable,
    Config.disabledVariable, Config.delayVariable]
  let mentioned ← match ← machineDisk.currentDir with
    | .ok dir => do
      let content ← Environment.nearest? machineDisk (dir.bytes.length + 1) dir
      pure (Environment.words (content.getD []))
    | .error _ => pure []
  let listed ← listedHome
  let mut env : Environment := { cacheHome := Variables.cacheHome? listed }
  for name in own ++ mentioned do
    match ← IO.getEnv name with
    | some value => env := env.addNew name value
    | none => pure ()
  pure env

end SnapStore

open SnapStore

/-- Carries out the command line. -/
def main (args : List String) : IO UInt32 := do
  let output ← Inspect.command machineDisk (← machineEnvironment) args
  (← IO.getStdout).putStr output.out
  (← IO.getStderr).putStr output.err
  pure output.exitCode
