import SnapStore.Config
import SnapStore.Disk
import SnapStore.Json.Scalar

namespace SnapStore.Config

/-!
# Configuration files

A configuration file is a JSON object with some of the settings, in any order, each at most once;
other members are skipped.  A list gives the settings in their usual order instead, as many as it has.
What is not given keeps its default.

* `Field` are the settings by name, `Field.read` reads the value of one.
* `ofJson` reads a configuration, `load` a configuration file.
-/

open Json (Scan Stop stop stopAhead skipSpace)

/-- The settings. -/
inductive Field
  | enabled | cacheDir | fileName | modelVersion | saveDelayMs | maxSaveDelayMs | flushOnShutdown
  | compressionLevel
  deriving DecidableEq, Repr

namespace Field

/-- All settings, in their usual order. -/
def all : List Field :=
  [.enabled, .cacheDir, .fileName, .modelVersion, .saveDelayMs, .maxSaveDelayMs, .flushOnShutdown,
    .compressionLevel]

/-- The name of a setting. -/
def name : Field → String
  | .enabled => "enabled"
  | .cacheDir => "cache_dir"
  | .fileName => "file_name"
  | .modelVersion => "model_version"
  | .saveDelayMs => "save_delay_ms"
  | .maxSaveDelayMs => "max_save_delay_ms"
  | .flushOnShutdown => "flush_on_shutdown"
  | .compressionLevel => "compression_level"

/-- The setting of a name. -/
def ofName? (s : String) : Option Field := all.find? (·.name = s)

/-- A number of 64 bits. -/
def word : Scan UInt64 := fun text => do
  let (i, rest) ← Scan.integer "u64" 0 18446744073709551615 text
  pure (UInt64.ofNat i.toNat, rest)

/-- Reads the value of a setting. -/
def read (f : Field) (c : Config) : Scan Config := fun text =>
  match f with
  | .enabled => do
    let (b, rest) ← Scan.bool text
    pure ({ c with enabled := b }, rest)
  | .cacheDir => do
    let (dir, rest) ← Scan.nullable (Scan.text "path string") text
    pure ({ c with cacheDir := dir.map Path.ofString }, rest)
  | .fileName => do
    let (s, rest) ← Scan.text "a string" text
    pure ({ c with fileName := s }, rest)
  | .modelVersion => do
    let (i, rest) ← Scan.integer "u32" 0 4294967295 text
    pure ({ c with modelVersion := UInt32.ofNat i.toNat }, rest)
  | .saveDelayMs => do
    let (n, rest) ← word text
    pure ({ c with saveDelayMs := n }, rest)
  | .maxSaveDelayMs => do
    let (n, rest) ← word text
    pure ({ c with maxSaveDelayMs := n }, rest)
  | .flushOnShutdown => do
    let (b, rest) ← Scan.bool text
    pure ({ c with flushOnShutdown := b }, rest)
  | .compressionLevel => do
    let (i, rest) ← Scan.integer "i32" (-2147483648) 2147483647 text
    pure ({ c with compressionLevel := Int32.ofInt i }, rest)

end Field

/-! ### Objects -/

/-- The place of a setting that an object has twice: where the text goes on after its name, behind a
closing brace. -/
def repeatedAt (text : List Char) : List Char :=
  match skipSpace text with
  | '\x7d' :: rest => rest
  | rest => rest

/-- Reads a member, from behind the quote that opens its name on. -/
def readMember (seen : List Field) (c : Config) : Scan (List Field × Config) := fun text => do
  let (key, text) ← Scan.string text
  let value (f? : Option Field) (text : List Char) :
      Except Stop ((List Field × Config) × List Char) :=
    match skipSpace text with
    | [] => stopAhead .eofInObject []
    | ':' :: text =>
      match f? with
      | some f => do
        let (c, rest) ← f.read c text
        pure ((f :: seen, c), rest)
      | none => do
        let (_, rest) ← Scan.skipValue text
        pure ((seen, c), rest)
    | text => stopAhead .expectedColon text
  match Field.ofName? key with
  | none => value none text
  | some f =>
    if f ∈ seen then stop (.duplicateField f.name) (repeatedAt text) else value (some f) text

/-- Reads members up to the closing brace, from the first one or from behind one on.  Each of them
takes at least one character, so that `text.length` turns are enough. -/
def readMembers : Nat → Bool → List Field → Config → Scan Config
  | 0, _, _, _, _ => stop .eofInObject []
  | fuel + 1, first, seen, c, text =>
    let member (text : List Char) : Except Stop (Config × List Char) :=
      match readMember seen c text with
      | .ok ((seen, c), rest) => readMembers fuel false seen c rest
      | .error e => .error e
    match skipSpace text with
    | [] => stopAhead .eofInObject []
    | '\x7d' :: rest => .ok (c, rest)
    | x :: rest =>
      if first then
        if x = '"' then member rest else stopAhead .keyNotString (x :: rest)
      else if x = ',' then
        match skipSpace rest with
        | [] => stopAhead .eofInValue []
        | '"' :: rest => member rest
        | '\x7d' :: rest => stopAhead .trailingComma ('\x7d' :: rest)
        | rest => stopAhead .keyNotString rest
      else stopAhead .expectedObjectCommaOrEnd (x :: rest)

/-! ### Lists -/

/-- What must follow the last setting of a list. -/
def endOfList (c : Config) : Scan Config := fun text =>
  match skipSpace text with
  | [] => stopAhead .eofInList []
  | ']' :: rest => .ok (c, rest)
  | ',' :: rest =>
    match skipSpace rest with
    | ']' :: rest => stopAhead .trailingComma (']' :: rest)
    | rest => stopAhead .trailingCharacters rest
  | rest => stopAhead .trailingCharacters rest

/-- Reads the given settings up to the closing bracket, from the first one or from behind one on. -/
def readItems : List Field → Bool → Config → Scan Config
  | [], _, c => endOfList c
  | f :: fs, first, c => fun text =>
    let item (text : List Char) : Except Stop (Config × List Char) :=
      match f.read c text with
      | .ok (c, rest) => readItems fs false c rest
      | .error e => .error e
    match skipSpace text with
    | [] => stopAhead .eofInList []
    | ']' :: rest => .ok (c, rest)
    | x :: rest =>
      if first then item (x :: rest)
      else if x = ',' then
        match skipSpace rest with
        | [] => stopAhead .eofInValue []
        | ']' :: rest => stopAhead .trailingComma (']' :: rest)
        | rest => item rest
      else stopAhead .expectedListCommaOrEnd (x :: rest)

/-! ### Files -/

/-- Reads a configuration from the front of a text. -/
def readJson : Scan Config := Scan.token fun text =>
  match text with
  | '[' :: rest => readItems Field.all true {} rest
  | '\x7b' :: rest => readMembers (rest.length + 1) true [] {} rest
  | text => Scan.mistyped "struct CacheConfig" text

/-- Reads a configuration that is the whole text. -/
def ofJson (s : String) : Except Json.Error Config :=
  let text := s.toList
  let whole : Except Stop (Config × List Char) := do
    let (c, rest) ← readJson text
    match skipSpace rest with
    | [] => pure (c, [])
    | rest => stopAhead .trailingCharacters rest
  match whole with
  | .ok (c, _) => .ok c
  | .error s => .error (s.toError text)

/-- The configuration in the contents of a file. -/
def ofFile (p : Path) (content : Bytes) : Except CacheError Config := do
  match content.toString? with
  | none => throw (.ioAt "read cache config" p .invalidText)
  | some s =>
    match ofJson s with
    | .error e => throw (.config (.unreadable p e))
    | .ok c =>
      match c.validate with
      | .error fault => throw (.config fault)
      | .ok () => pure c

/-- Loads a configuration file; if it is not there, everything has its default. -/
def load {m : Type → Type} [Monad m] (d : Disk m) (p : Path) : m (Except CacheError Config) := do
  match ← d.readFile p with
  | .ok content => pure (ofFile p content)
  | .error e =>
    if e.kind = .notFound then pure (.ok {})
    else pure (.error (.ioAt "read cache config" p e))

end SnapStore.Config
