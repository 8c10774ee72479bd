import SnapStore.Environment.File
import SnapStore.Inspect.Report

namespace SnapStore.Inspect

/-!
# The command

`command` is the whole tool on any disk: it takes the environment file into account, reads the command
line and prints a report, or says on the error output why there is none.
-/

/-- What a command prints and how it ends. -/
structure Output where
  exitCode : UInt32 := 0
  out : String := ""
  err : String := ""
  deriving DecidableEq, Repr

/-- What is printed about a report or a failure.  A document has no place for a path that is no text. -/
def Output.ofReport : Except Failure Report → Output
  | .ok r =>
    match r.path.text? with
    | some name => { out := (r.document name).pretty 0 ++ "\n" }
    | none => { exitCode := 1, err := "failed to render report: path contains invalid UTF-8 characters\n" }
  | .error f => { exitCode := 1, err := f.message ++ "\n" }

/-- Carries out a command line. -/
def command {m : Type → Type} [Monad m] (d : Disk m) (env : Environment) (args : List String) :
    m Output := do
  let env ← env.loadNearest d
  match Arguments.parse args with
  | .error fault => pure { exitCode := 2, err := fault.explain }
  | .ok .help => pure { out := help (isStyled env) }
  | .ok .version => pure { out := versionLine }
  | .ok (.report r) => do
    let outcome ← report d env r
    pure (.ofReport outcome)

end SnapStore.Inspect
