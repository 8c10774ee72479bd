import SnapStore.Environment
import SnapStore.Error
import SnapStore.Text.Blank

namespace SnapStore

/-!
# Configuration

* `Config` are the settings of a cache; `{}` are the defaults.
* `Config.validate` refuses a file name that would lead out of the directory of the cache, and levels
  that no compressor has.
* `Config.override` lets the environment have its way, and says what it could not make sense of.
* `Config.cachePath` is the file of the cache.
-/

/-- The settings of a cache. -/
structure Config where
  /-- Whether there is a cache at all. -/
  enabled : Bool := true
  /-- The directory of the cache, unless it is the usual one. -/
  cacheDir : Option Path := none
  /-- The name of its file. -/
  fileName : String := "global-model-cache.bin.zst"
  /-- The version of the model type. -/
  modelVersion : UInt32 := 1
  /-- How long there must be no request before a save starts, in milliseconds. -/
  saveDelayMs : UInt64 := 1000
  /-- How long further requests can postpone a save. -/
  maxSaveDelayMs : UInt64 := 10000
  /-- Whether a pending save is made when the cache shuts down. -/
  flushOnShutdown : Bool := true
  compressionLevel : Int32 := 3
  deriving DecidableEq, Repr

namespace Config

/-! ### Validity -/

/-- The lowest and the highest compression level. -/
def levelRange : Int × Int := (-131072, 22)

/-- Checks a file name, blanks at its ends aside: it must be a name, and only one. -/
def validateName (name : String) : Except ConfigFault Unit :=
  let trimmed := Text.trim name
  if trimmed = "" ∨ trimmed = "." ∨ trimmed = ".." then .error (.invalidFileName name)
  else if trimmed.toList.any fun c => c = '/' ∨ c = '\\' then .error (.separator name)
  else .ok ()

/-- Checks a configuration. -/
def validate (c : Config) : Except ConfigFault Unit := do
  validateName c.fileName
  let level := c.compressionLevel.toInt
  if level < levelRange.1 ∨ levelRange.2 < level then throw (.levelOutOfRange level)

/-! ### The environment -/

/-- Why a text is not a number. -/
inductive NumberFault
  | empty | invalidDigit | overflow
  deriving DecidableEq, Repr

/-- The wording of a number fault. -/
def NumberFault.message : NumberFault → String
  | .empty => "cannot parse integer from empty string"
  | .invalidDigit => "invalid digit found in string"
  | .overflow => "number too large to fit in target type"

/-- Reads digits behind those of `n`; the first fault wins. -/
def readDigits : Nat → List Char → Except NumberFault Nat
  | n, [] => .ok n
  | n, c :: cs =>
    if '0' ≤ c ∧ c ≤ '9' then
      let n := n * 10 + (c.toNat - '0'.toNat)
      if n < Nat.pow 2 64 then readDigits n cs else .error .overflow
    else .error .invalidDigit

/-- Reads a number of 64 bits, which may have a plus sign. -/
def readNumber (s : String) : Except NumberFault UInt64 :=
  match s.toList with
  | [] => .error .empty
  | ['+'] => .error .invalidDigit
  | '+' :: cs => (readDigits 0 cs).map UInt64.ofNat
  | cs => (readDigits 0 cs).map UInt64.ofNat

/-- The names of the variables that override settings. -/
def dirVariable : String := "MODEL_CACHE_DIR"
@[inherit_doc dirVariable] def disabledVariable : String := "MODEL_CACHE_DISABLED"
@[inherit_doc dirVariable] def delayVariable : String := "MODEL_CACHE_SAVE_DELAY_MS"

/-- The directory that the environment asks for: any text that is not blank.  A value that is no text does
not count, neither here nor for the other variables. -/
def dirOverride? (env : Environment) : Option Path :=
  match env.get? dirVariable with
  | some dir => if Text.trim dir = "" then none else some (.ofString dir)
  | none => none

/-- Whether the environment turns the cache off. -/
def isDisabledBy (env : Environment) : Bool :=
  match env.get? disabledVariable with
  | some s => ["1", "true", "yes"].contains (Text.trim s)
  | none => false

/-- The configuration as the environment wants it, and a warning about a delay that is no number. -/
def override (c : Config) (env : Environment) : Config × List String :=
  let c := { c with
    cacheDir := (dirOverride? env).or c.cacheDir
    enabled := c.enabled && ! isDisabledBy env }
  match env.get? delayVariable with
  | none => (c, [])
  | some delay =>
    match readNumber (Text.trim delay) with
    | .ok n => ({ c with saveDelayMs := n }, [])
    | .error e => (c, ["ignoring " ++ delayVariable ++ "=" ++ delay ++ ": " ++ e.message])

/-- The directory of a cache: the one that is configured, or else one of its own among the caches of the
user. -/
def directory (c : Config) (env : Environment) : Except ConfigFault Path :=
  match c.cacheDir with
  | some dir => .ok dir
  | none =>
    match env.userCacheDir? with
    | some dir => .ok (dir.join (.ofString "global-model-cache"))
    | none => .error .noUserDirectory

/-- The file of a cache. -/
def cachePath (c : Config) (env : Environment) : Except ConfigFault Path := do
  let dir ← c.directory env
  pure (dir.join (.ofString c.fileName))

/-! ### Delays -/

/-- How long there must be no request before a save starts, in milliseconds. -/
def saveDelay (c : Config) : Nat := c.saveDelayMs.toNat

/-- How long further requests can postpone a save: never less than the delay. -/
def maxSaveDelay (c : Config) : Nat := max c.maxSaveDelayMs.toNat c.saveDelayMs.toNat

end Config

end SnapStore
