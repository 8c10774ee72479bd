import SnapStore.Environment
import SnapStore.Path

namespace SnapStore.Inspect

/-!
# Command lines

The tool takes a configuration file or a cache file and can be told to remove the cache.  An option is
given at most once; its value stands behind an equals sign or in the next argument, is not empty, and
does not start with a dash unless it is a dash alone.

* `Request` is what a command line asks for, `Arguments.parse` reads one.
* `UsageFault.message` says what is wrong with one, `help` how to do it right; `Emphasis` sets off
  the parts of that text if the environment demands it.
-/

/-- The options that take a value. -/
inductive Setting
  | config | path
  deriving DecidableEq, Repr

/-- The name of an option. -/
def Setting.name : Setting → String
  | .config => "config"
  | .path => "path"

/-- An option as it stands in a command line. -/
def Setting.usage : Setting → String
  | .config => "--config <CONFIG>"
  | .path => "--path <PATH>"

/-- What a command line asks for. -/
structure Request where
  /-- The configuration file, unless the defaults apply. -/
  config : Option Path := none
  /-- The cache file, unless it is the one of the configuration. -/
  path : Option Path := none
  /-- Whether to remove the cache. -/
  invalidate : Bool := false
  deriving DecidableEq, Repr

/-- What a command line can be. -/
inductive Action
  | report (r : Request)
  | help
  | version
  deriving DecidableEq, Repr

/-- What can be wrong with a command line. -/
inductive UsageFault
  | unexpected (argument : String)
  | missingValue (usage : String)
  | emptyValue (usage : String)
  | unexpectedValue (value option : String)
  | repeated (usage : String)
  deriving DecidableEq, Repr

/-- The wording of a usage fault. -/
def UsageFault.message : UsageFault → String
  | .unexpected argument => "unexpected argument '" ++ argument ++ "' found"
  | .missingValue usage => "a value is required for '" ++ usage ++ "' but none was supplied"
  | .emptyValue usage => "a value is required for '" ++ usage ++ "' but none was supplied"
  | .unexpectedValue value option =>
    "unexpected value '" ++ value ++ "' for '" ++ option ++ "' found; no more were expected"
  | .repeated usage => "the argument '" ++ usage ++ "' cannot be used multiple times"

/-- Gives an option its value. -/
def Request.set (r : Request) (s : Setting) (value : String) : Except UsageFault Request :=
  let earlier := match s with
    | .config => r.config
    | .path => r.path
  if earlier.isSome then .error (.repeated s.usage)
  else if value = "" then .error (.emptyValue s.usage)
  else
    .ok (match s with
      | .config => { r with config := some (.ofString value) }
      | .path => { r with path := some (.ofString value) })

namespace Arguments

/-- What has been read of a command line. -/
structure State where
  request : Request := {}
  /-- The last option, as long as its value is not settled, and its value if there is one. -/
  pending : Option (Setting × Option String) := none

/-- Settles the value of the last option. -/
def State.settle (s : State) : Except UsageFault Request :=
  match s.pending with
  | none => .ok s.request
  | some (option, none) => .error (.missingValue option.usage)
  | some (option, some value) => s.request.set option value

/-- Splits an option from the value behind its equals sign. -/
def splitValue (cs : List Char) : List Char × Option (List Char) :=
  match cs.dropWhile (· ≠ '=') with
  | _ :: value => (cs.takeWhile (· ≠ '='), some value)
  | [] => (cs, none)

/-- What an argument is. -/
inductive Argument
  | /-- Two dashes, behind which nothing is an option. -/ separator
  | option (s : Setting) (value : Option String)
  | /-- An option that takes no value, with one. -/ overloaded (name value : String)
  | invalidate
  | help
  | version
  | unknown (text : String)
  | /-- No option. -/ word (text : String)
  deriving DecidableEq, Repr

/-- The option of a long name. -/
def Argument.long (name : String) (value : Option String) : Argument :=
  let flag (a : Argument) : Argument :=
    match value with
    | some v => .overloaded ("--" ++ name) v
    | none => a
  if name = Setting.config.name then .option .config value
  else if name = Setting.path.name then .option .path value
  else if name = "invalidate" then flag .invalidate
  else if name = "help" then flag .help
  else if name = "version" then flag .version
  else .unknown ("--" ++ name)

/-- What an argument is, by its form alone. -/
def Argument.ofString (text : String) : Argument :=
  match text.toList with
  | ['-', '-'] => .separator
  | '-' :: '-' :: cs =>
    let (name, value) := splitValue cs
    .long (String.ofList name) (value.map String.ofList)
  | '-' :: 'h' :: _ => .help
  | '-' :: 'V' :: _ => .version
  | '-' :: _ :: _ => .unknown text
  | _ => .word text

/-- Reads the arguments behind those that have been read; the first fault counts. -/
def readFrom (s : State) : List String → Except UsageFault Action
  | [] => s.settle.map .report
  | text :: rest =>
    match Argument.ofString text with
    | .separator => do
      let r ← s.settle
      match rest with
      | [] => pure (.report r)
      | text :: _ => throw (.unexpected text)
    | .option option none => do
      let r ← s.settle
      readFrom ⟨r, some (option, none)⟩ rest
    | .option option (some value) => do
      let r ← s.settle
      let r ← r.set option value
      readFrom ⟨r, none⟩ rest
    | .overloaded name value => throw (.unexpectedValue value name)
    | .invalidate => do
      let r ← s.settle
      if r.invalidate then throw (.repeated "--invalidate")
      readFrom ⟨{ r with invalidate := true }, none⟩ rest
    | .help => do
      let _ ← s.settle
      pure .help
    | .version => do
      let _ ← s.settle
      pure .version
    | .unknown text => throw (.unexpected text)
    | .word text =>
      match s.pending with
      | some (option, none) => readFrom ⟨s.request, some (option, some text)⟩ rest
      | _ => throw (.unexpected text)

/-- Reads a command line. -/
def parse (args : List String) : Except UsageFault Action := readFrom {} args

end Arguments

/-! ### Texts -/

/-- The name of the tool. -/
def toolName : String := "model-cache-inspect"

/-- The version of the tool, by name. -/
def versionLine : String := toolName ++ " 0.1.0\n"

/-- How the tool is called. -/
def usageLine : String := "Usage: " ++ toolName ++ " [OPTIONS]\n"

/-- How a part of a text is set off from the rest. -/
inductive Emphasis
  | heading
  /-- What is to be typed as it stands. -/
  | literal
  deriving DecidableEq, Repr

/-- The control sequences that start an emphasis. -/
def Emphasis.start : Emphasis → String
  | .heading => "\x1b[1m\x1b[4m"
  | .literal => "\x1b[1m"

/-- Sets off a text, if texts are set off at all. -/
def Emphasis.mark (styled : Bool) (e : Emphasis) (text : String) : String :=
  if styled then e.start ++ text ++ "\x1b[0m" else text

/-- Whether the environment demands emphasis in texts that no terminal shows, and does not forbid it.
An empty variable says nothing, any other value counts. -/
def isStyled (env : Environment) : Bool :=
  let given (name : String) : Bool := (env.vars.value? name).any (· ≠ [])
  given "CLICOLOR_FORCE" && !given "NO_COLOR"

/-- What the tool does and how it is called. -/
def help (styled : Bool) : String :=
  let heading := Emphasis.heading.mark styled
  let literal := Emphasis.literal.mark styled
  "Inspect or invalidate a persisted global model cache\n\n" ++
    heading "Usage:" ++ " " ++ literal toolName ++ " [OPTIONS]\n\n" ++ heading "Options:" ++ "\n" ++
    "      " ++ literal "--config" ++
      " <CONFIG>  JSON config file; defaults apply when omitted or missing\n" ++
    "      " ++ literal "--path" ++
      " <PATH>      Cache file to inspect, overriding the configured location\n" ++
    "      " ++ literal "--invalidate" ++ "       Remove the cache file instead of describing it\n" ++
    "  " ++ literal "-h" ++ ", " ++ literal "--help" ++ "             Print help\n" ++
    "  " ++ literal "-V" ++ ", " ++ literal "--version" ++ "          Print version\n"

/-- What is printed about a usage fault. -/
def UsageFault.explain (f : UsageFault) : String :=
  "error: " ++ f.message ++ "\n\n" ++ usageLine ++ "\nFor more information, try '--help'.\n"

end SnapStore.Inspect
