import SnapStore.Bytes
import SnapStore.Disk
import SnapStore.Environment
import SnapStore.Text.Alphanumeric
import SnapStore.Text.Blank

namespace SnapStore.Environment

/-!
# Environment files

An environment file sets variables, one assignment `NAME=value` after another.  A value can be quoted
and can then go on over several lines; between double quotes, and without quotes, it can refer to
variables that are set already.

* `logicalLine?` takes the next assignment off the lines of a file.
* `assignment` reads an assignment, `readValue` its value.
* `load` sets the variables of a file that are not set yet, up to the first line that makes no sense.
* `loadNearest` does so with the nearest environment file, from the working directory upwards.
-/

/-! ### Lines -/

/-- Where a scan for the end of an assignment stands. -/
inductive LineState
  | /-- The assignment can end here. -/ complete
  | /-- Behind a blank, where a comment can start. -/ blank
  | escape
  | strong | strongEscape
  | weak | weakEscape
  deriving DecidableEq, Repr

/-- The state behind a character outside of quotes. -/
def LineState.plain : Char → LineState
  | '\\' => .escape
  | '"' => .weak
  | '\'' => .strong
  | _ => .complete

/-- The state behind a character; there is none where a comment starts. -/
def LineState.next (c : Char) : LineState → Option LineState
  | .complete =>
    some (if Text.isBlank c ∧ c ≠ '\n' ∧ c ≠ '\r' then .blank else .plain c)
  | .blank => if c = '#' then none else some (.plain c)
  | .escape => some .complete
  | .strong => some (if c = '\\' then .strongEscape else if c = '\'' then .complete else .strong)
  | .strongEscape => some .strong
  | .weak => some (if c = '\\' then .weakEscape else if c = '"' then .complete else .weak)
  | .weakEscape => some .weak

/-- Scans a line.  What is in front of a comment is all that counts; otherwise there is a state at the
end of the line. -/
def scanLine : LineState → List Char → Option LineState × List Char
  | s, [] => (some s, [])
  | s, c :: cs =>
    match s.next c with
    | none => (none, [])
    | some s =>
      let (last, front) := scanLine s cs
      (last, c :: front)

/-- A line without its end. -/
def chomp (cs : List Char) : List Char :=
  match cs.reverse with
  | '\n' :: '\r' :: r => r.reverse
  | '\n' :: r => r.reverse
  | _ => cs

/-- The next assignment, which may go on over several lines, and the lines behind it. -/
def logicalLine? : List (List Char) → LineState → List Char → Option (List Char × List (List Char))
  | [], _, _ => none
  | line :: lines, s, before =>
    if (Text.trimStart (before ++ line)).head? = some '#' then some ([], lines)
    else
      match scanLine s line with
      | (none, front) => some (before ++ front, lines)
      | (some .complete, _) => some (chomp (before ++ line), lines)
      | (some s, _) => logicalLine? lines s (before ++ line)

/-- The lines of a file, each with its end. -/
def splitLines : Bytes → List Bytes
  | [] => []
  | x :: content =>
    if x = 10 then [x] :: splitLines content
    else
      match splitLines content with
      | line :: lines => (x :: line) :: lines
      | [] => [[x]]

/-- The lines of a file up to the first one that is not well-formed UTF-8. -/
def physicalLines (content : Bytes) : List (List Char) :=
  (((splitLines content).map Bytes.toString?).takeWhile (·.isSome)).map fun s => (s.getD "").toList

/-! ### Values -/

/-- Where the reading of a value stands. -/
inductive ValueState
  | text
  | escape
  | strong
  | /-- Behind a blank, where nothing but a comment can follow. -/ ended
  | /-- In the name of a variable. -/ name (name : List Char)
  | /-- In the name of a variable in braces. -/ braced (name : List Char)
  deriving DecidableEq, Repr

/-- The value of a variable that a value refers to; empty if it is not set. -/
def reference (env : Environment) (name : List Char) : List Char :=
  ((env.get? (String.ofList name)).getD "").toList

/-- The character that an escaped one stands for. -/
def unescape? : Char → Option Char
  | 'n' => some '\n'
  | c => if c ∈ ['\\', '\'', '"', '$', ' '] then some c else none

/-- Reads a value, behind the part that is read already; `weak` tells whether a double quote is open.
It has none if it makes no sense. -/
def readValue (env : Environment) (weak : Bool) :
    ValueState → List Char → List Char → Option (List Char)
  | .braced _, _, [] => none
  | .strong, _, [] => none
  | .name name, out, [] => if weak then none else some (out ++ reference env name)
  | _, out, [] => if weak then none else some out
  | .ended, out, c :: cs =>
    if c = ' ' ∨ c = '\t' then readValue env weak .ended out cs
    else if c = '#' then some out
    else none
  | .escape, out, c :: cs =>
    match unescape? c with
    | some c => readValue env weak .text (out ++ [c]) cs
    | none => none
  | .strong, out, c :: cs =>
    if c = '\'' then readValue env weak .text out cs else readValue env weak .strong (out ++ [c]) cs
  | .name name, out, c :: cs =>
    if Text.isAlphanumeric c then readValue env weak (.name (name ++ [c])) out cs
    else if c = '\x7b' ∧ name = [] then readValue env weak (.braced []) out cs
    else
      let out := out ++ reference env name
      if c = '$' then readValue env weak (.name []) out cs
      else readValue env weak .text (out ++ [c]) cs
  | .braced name, out, c :: cs =>
    if c = '\x7d' then readValue env weak .text (out ++ reference env name) cs
    else readValue env weak (.braced (name ++ [c])) out cs
  | .text, out, c :: cs =>
    if c = '$' then readValue env weak (.name []) out cs
    else if c = '\\' then readValue env weak .escape out cs
    else if c = '"' then readValue env (! weak) .text out cs
    else if weak then readValue env weak .text (out ++ [c]) cs
    else if c = '\'' then readValue env weak .strong out cs
    else if c = ' ' ∨ c = '\t' then readValue env weak .ended out cs
    else readValue env weak .text (out ++ [c]) cs

/-! ### Assignments -/

/-- Whether a character can start the name of a variable. -/
def isNameStart (c : Char) : Bool := c.isAlpha || c = '_'

/-- Whether a character can stand in the name of a variable. -/
def isNamePart (c : Char) : Bool := c.isAlphanum || c = '_' || c = '.'

/-- The name at the front of an assignment, and what follows it behind blanks. -/
def readName (cs : List Char) : Option (List Char × List Char) :=
  match cs with
  | c :: _ =>
    if isNameStart c then some (cs.takeWhile isNamePart, Text.trimStart (cs.dropWhile isNamePart))
    else none
  | [] => none

/-- The name of an assignment and what follows the equals sign.  The word `export` may come first. -/
def readTarget (cs : List Char) : Option (List Char × List Char) := do
  match ← readName cs with
  | (name, '=' :: rest) => pure (name, rest)
  | (name, rest) =>
    if name = "export".toList then
      match ← readName rest with
      | (name, '=' :: rest) => pure (name, rest)
      | _ => none
    else none

/-- What a line comes to. -/
inductive Assignment
  | /-- It is empty or a comment. -/ nothing
  | set (name value : String)
  | nonsense
  deriving DecidableEq, Repr

/-- Reads an assignment. -/
def assignment (env : Environment) (line : List Char) : Assignment :=
  let cs := Text.trimChars line
  if cs = [] ∨ cs.head? = some '#' then .nothing
  else
    match readTarget cs with
    | none => .nonsense
    | some (name, rest) =>
      let rest := Text.trimStart rest
      if rest = [] ∨ rest.head? = some '#' then .set (String.ofList name) ""
      else
        match readValue env false .text [] rest with
        | some value => .set (String.ofList name) (String.ofList value)
        | none => .nonsense

/-! ### Files -/

/-- The mark that may stand in front of a text, in UTF-8. -/
def byteOrderMark : Bytes := [0xEF, 0xBB, 0xBF]

/-- Sets the variables of the lines of a file, which are at most `fuel`. -/
def loadLines : Nat → Environment → List (List Char) → Environment
  | 0, env, _ => env
  | fuel + 1, env, lines =>
    match logicalLine? lines .complete [] with
    | none => env
    | some (line, lines) =>
      match assignment env line with
      | .nothing => loadLines fuel env lines
      | .set name value => loadLines fuel (env.addNew name value) lines
      | .nonsense => env

/-- Sets the variables of a file that are not set yet. -/
def load (env : Environment) (content : Bytes) : Environment :=
  let content := if byteOrderMark.isPrefixOf content then content.drop 3 else content
  let lines := physicalLines content
  loadLines (lines.length + 1) env lines

/-- The words of a file that can be names of variables: runs of letters and digits, and runs of
characters that can stand in the name of an assignment. -/
def words (content : Bytes) : List String :=
  (physicalLines content).flatMap fun line =>
    let runs (p : Char → Bool) := ((String.ofList line).splitToList (! p ·)).filter (· ≠ "")
    runs Text.isAlphanumeric ++ runs isNamePart

/-- The name of an environment file. -/
def fileName : Path := .ofString ".env"

/-- The contents of the nearest environment file, in a directory or one of those above it, of which
there are at most `depth`. -/
def nearest? {m : Type → Type} [Monad m] (d : Disk m) : Nat → Path → m (Option Bytes)
  | 0, _ => pure none
  | depth + 1, dir => do
    match ← d.readFile (dir.join fileName) with
    | .ok content => pure (some content)
    | .error e =>
      if e.kind = .notFound ∨ e = .os .isDirectory then
        match dir.parent? with
        | some above => nearest? d depth above
        | none => pure none
      else pure none

/-- Sets the variables of the nearest environment file that are not set yet. -/
def loadNearest {m : Type → Type} [Monad m] (d : Disk m) (env : Environment) : m Environment := do
  match ← d.currentDir with
  | .error _ => pure env
  | .ok dir =>
    match ← nearest? d (dir.bytes.length + 1) dir with
    | some content => pure (env.load content)
    | none => pure env

end SnapStore.Environment
