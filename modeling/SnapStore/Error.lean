import SnapStore.Model.Encode
import SnapStore.Model.Decode
import SnapStore.Zstandard.Fault
import SnapStore.Json.Error
import SnapStore.Path
import SnapStore.Text.Quoted

namespace SnapStore

/-!
# Errors

Everything that can go wrong is one of six kinds.  Within a kind the causes that arise in this
library are told apart; a host whose storage reports failures of its own words them itself.

* `CacheError` is an error, `CacheError.message` its wording.
* `IoError` is a failure of the file system; `IoError.during` says what it happened to.
-/

/-! ### Failures of the file system -/

/-- The failures of the operating system that file operations meet. -/
inductive OsFailure
  | notFound | permissionDenied | busy | exists | notDirectory | isDirectory | invalidArgument
  | nameTooLong | notEmpty
  /-- Any other one, by its number and text. -/
  | other (code : Nat) (text : String)
  deriving DecidableEq, Repr

/-- The number and the text of a failure. -/
def OsFailure.describe : OsFailure → Nat × String
  | .notFound => (2, "No such file or directory")
  | .permissionDenied => (13, "Permission denied")
  | .busy => (16, "Device or resource busy")
  | .exists => (17, "File exists")
  | .notDirectory => (20, "Not a directory")
  | .isDirectory => (21, "Is a directory")
  | .invalidArgument => (22, "Invalid argument")
  | .nameTooLong => (36, "File name too long")
  | .notEmpty => (39, "Directory not empty")
  | .other code text => (code, text)

/-- The failure of a number, which has the given text if it is none of the usual ones. -/
def OsFailure.ofCode (code : Nat) (text : String) : OsFailure :=
  let usual : List OsFailure := [.notFound, .permissionDenied, .busy, .exists, .notDirectory,
    .isDirectory, .invalidArgument, .nameTooLong, .notEmpty]
  (usual.find? (·.describe.1 = code)).getD (.other code text)

/-- What callers tell apart about a file error. -/
inductive IoKind
  | notFound | permissionDenied | invalidData | other
  deriving DecidableEq, Repr

/-- A failed file operation. -/
inductive IoError
  | /-- The operating system refused. -/ os (failure : OsFailure)
  | /-- The name of a file holds a null character. -/ nulInName
  | /-- A text file is not well-formed UTF-8. -/ invalidText
  | /-- A failure in somebody else's words. -/ custom (kind : IoKind) (text : String)
  | /-- A failure, with what was attempted and where. -/
    during (action : String) (path : Path) (cause : IoError)
  deriving DecidableEq, Repr

namespace IoError

/-- The kind of a file error; saying where it happened does not change it. -/
def kind : IoError → IoKind
  | .os .notFound => .notFound
  | .os .permissionDenied => .permissionDenied
  | .os _ => .other
  | .nulInName => .other
  | .invalidText => .invalidData
  | .custom kind _ => kind
  | .during _ _ cause => cause.kind

/-- The wording of a file error. -/
def message : IoError → String
  | .os failure =>
    let (code, text) := failure.describe
    text ++ " (os error " ++ toString code ++ ")"
  | .nulInName => "file name contained an unexpected NUL byte"
  | .invalidText => "stream did not contain valid UTF-8"
  | .custom _ text => text
  | .during action path cause => "failed to " ++ action ++ " " ++ path.display ++ ": " ++ cause.message

end IoError

/-! ### The six kinds -/

/-- Why a stored blob is not a snapshot. -/
inductive Corruption
  | /-- There are no bytes. -/ emptyBlob
  | /-- The compression is broken. -/ frame (fault : Zstandard.Fault)
  | /-- The contents do not start with a header. -/ header (error : DecodeError)
  | /-- No model follows the header. -/ model (error : DecodeError)
  | custom (text : String)
  deriving DecidableEq, Repr

/-- The wording of a corruption. -/
def Corruption.message : Corruption → String
  | .emptyBlob => "empty cache blob"
  | .frame fault => "decompress failed: " ++ fault.message
  | .header error => "header decode failed: " ++ error.message
  | .model error => "model decode failed: " ++ error.message
  | .custom text => text

/-- Which version of a snapshot is not the expected one. -/
inductive Mismatch
  | format (found expected : UInt32)
  | model (found expected : UInt32)
  | custom (text : String)
  deriving DecidableEq, Repr

/-- The wording of a version mismatch. -/
def Mismatch.message : Mismatch → String
  | .format found expected => "format version " ++ toString found ++ " != " ++ toString expected
  | .model found expected => "model version " ++ toString found ++ " != " ++ toString expected
  | .custom text => text

/-- What a compressor is asked to do when a blob is made, in this order. -/
inductive CompressorTask
  | /-- To get ready. -/ create
  | /-- To add a checksum. -/ checksum
  | /-- To take in the header. -/ header
  | /-- To take in the model. -/ model
  | /-- To write what it has taken in. -/ finish
  deriving DecidableEq, Repr

/-- What is said to have failed with a task. -/
def CompressorTask.attempt : CompressorTask → String
  | .create => "create zstd encoder"
  | .checksum => "enable zstd checksum"
  | .header => "encode cache header"
  | .model => "encode model snapshot"
  | .finish => "finish zstd frame"

/-- Why a model cannot be written. -/
inductive EncodeFailure
  | /-- It has no binary form. -/ model (error : EncodeError)
  | /-- The compressor fails, for a reason of its own. -/ compressor (task : CompressorTask) (text : String)
  | custom (text : String)
  deriving DecidableEq, Repr

/-- The wording of an encoding failure. -/
def EncodeFailure.message : EncodeFailure → String
  | .model error => "failed to " ++ CompressorTask.model.attempt ++ ": " ++ error.message
  | .compressor task text => "failed to " ++ task.attempt ++ ": " ++ text
  | .custom text => text

/-- What is wrong with a configuration. -/
inductive ConfigFault
  | /-- The file name names no file. -/ invalidFileName (name : String)
  | /-- The file name holds a separator. -/ separator (name : String)
  | levelOutOfRange (level : Int)
  | /-- No directory is configured and the environment offers none. -/ noUserDirectory
  | /-- The file is not the JSON form of a configuration. -/ unreadable (path : Path) (error : Json.Error)
  | custom (text : String)
  deriving DecidableEq, Repr

/-- The wording of a configuration fault. -/
def ConfigFault.message : ConfigFault → String
  | .invalidFileName name => "invalid cache file name " ++ Text.quote name
  | .separator name => "cache file name must not contain path separators: " ++ Text.quote name
  | .levelOutOfRange level => "compression level " ++ toString level ++ " out of range"
  | .noUserDirectory => "no user cache directory available"
  | .unreadable path error =>
    "failed to parse cache config " ++ path.display ++ ": " ++ error.message
  | .custom text => text

/-- Whatever can go wrong with a cache. -/
inductive CacheError
  | io (error : IoError)
  | corrupted (why : Corruption)
  | versionMismatch (which : Mismatch)
  | serialization (why : EncodeFailure)
  | config (fault : ConfigFault)
  | internal (text : String)
  deriving DecidableEq, Repr

namespace CacheError

/-- The wording of an error. -/
def message : CacheError → String
  | .io error => "IO error: " ++ error.message
  | .corrupted why => "Corrupted cache: " ++ why.message
  | .versionMismatch which => "Cache version mismatch: " ++ which.message
  | .serialization why => "Serialization error: " ++ why.message
  | .config fault => "Invalid config: " ++ fault.message
  | .internal text => "Internal error: " ++ text

/-- A file error, with what was attempted and where. -/
def ioAt (action : String) (path : Path) (cause : IoError) : CacheError :=
  .io (.during action path cause)

/-- Whether an error comes from the file system, so that a further attempt may succeed. -/
def isIo : CacheError → Bool
  | .io _ => true
  | _ => false

end CacheError

end SnapStore
