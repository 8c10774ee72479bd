import SnapStore.Json.Error

namespace SnapStore.Json

/-!
# Scanning JSON

A scanner takes what it expects from the front of a text and leaves the rest.  When it fails it says
what text was left at that moment, which is where the fault is.

* `Scan` is a scanner, `Stop` its failure, `Stop.toError` the place of a failure in the whole text.
* `Scan.word`, `Scan.string` and `Scan.digits` scan the parts of tokens.
-/

/-- A failure. -/
structure Stop where
  cause : Cause
  /-- The text that was left. -/
  rest : List Char
  /-- How many bytes of it the fault takes in, if there are as many. -/
  reach : Nat := 0
  deriving DecidableEq, Repr

/-- A scanner. -/
abbrev Scan (α : Type) := List Char → Except Stop (α × List Char)

/-- The line and column after a number of bytes of a text that starts at the given ones.  Columns
count bytes. -/
def advance : Nat → List Char → Nat × Nat → Nat × Nat
  | _, [], place => place
  | n, c :: text, (line, column) =>
    if n = 0 then (line, column)
    else if c = '\n' then advance (n - 1) text (line + 1, 0)
    else if n < c.utf8Size then (line, column + n)
    else advance (n - c.utf8Size) text (line, column + c.utf8Size)

/-- The number of bytes of a text. -/
def byteLength (text : List Char) : Nat := (text.map Char.utf8Size).foldl (· + ·) 0

/-- A failure with its place in the text. -/
def Stop.toError (text : List Char) (s : Stop) : Error :=
  let (line, column) := advance (byteLength text - byteLength s.rest + s.reach) text (1, 0)
  ⟨s.cause, line, column⟩

/-- Fails at the end of what has been scanned. -/
def stop {α : Type} (cause : Cause) : Scan α := fun rest => .error { cause, rest }

/-- Fails at the next byte. -/
def stopAhead {α : Type} (cause : Cause) : Scan α := fun rest => .error { cause, rest, reach := 1 }

/-- Whether a character may stand between tokens. -/
def isSpace (c : Char) : Bool := c == ' ' || c == '\n' || c == '\t' || c == '\r'

/-- The text from the next token on. -/
def skipSpace (text : List Char) : List Char := text.dropWhile isSpace

namespace Scan

/-- The letters of a word, one after another. -/
def word : List Char → Scan Unit
  | [], text => .ok ((), text)
  | _ :: _, [] => stop .eofInValue []
  | w :: ws, c :: text => if c = w then word ws text else stopAhead .expectedIdent (c :: text)

/-! ### Strings -/

/-- The value of a hexadecimal digit. -/
def hexValue? (c : Char) : Option Nat :=
  if '0' ≤ c ∧ c ≤ '9' then some (c.toNat - '0'.toNat)
  else if 'a' ≤ c ∧ c ≤ 'f' then some (c.toNat - 'a'.toNat + 10)
  else if 'A' ≤ c ∧ c ≤ 'F' then some (c.toNat - 'A'.toNat + 10)
  else none

/-- The number that four hexadecimal digits form.  Four bytes that are not hexadecimal digits are at
fault together. -/
def hexEscape : Scan Nat := fun text =>
  if byteLength (text.take 4) < 4 then stop .eofInString []
  else
    match text with
    | a :: b :: c :: d :: rest =>
      match hexValue? a, hexValue? b, hexValue? c, hexValue? d with
      | some a, some b, some c, some d => .ok (((a * 16 + b) * 16 + c) * 16 + d, rest)
      | _, _, _, _ => .error { cause := .invalidEscape, rest := text, reach := 4 }
    | _ => .error { cause := .invalidEscape, rest := text, reach := 4 }

/-- The character that follows, which must be `c`, after half of a surrogate pair. -/
def pairMark (c : Char) : Scan Unit := fun text =>
  match text with
  | [] => stop .eofInString []
  | x :: rest => if x = c then .ok ((), rest) else stopAhead .unpairedSurrogate (x :: rest)

/-- The character that an escape in hexadecimal stands for: one number, or two that form a surrogate
pair. -/
def unicodeEscape : Scan Char := fun text => do
  let (n, text) ← hexEscape text
  if 0xdc00 ≤ n ∧ n ≤ 0xdfff then stop .loneSurrogate text
  else if n < 0xd800 ∨ 0xdbff < n then .ok (Char.ofNat n, text)
  else do
    let (_, text) ← pairMark '\\' text
    let (_, text) ← pairMark 'u' text
    let (low, text) ← hexEscape text
    if low < 0xdc00 ∨ 0xdfff < low then stop .loneSurrogate text
    else .ok (Char.ofNat ((n - 0xd800) * 0x400 + (low - 0xdc00) + 0x10000), text)

/-- What the letter of a short escape stands for. -/
def shortEscape? : Char → Option Char
  | '"' => some '"'
  | '\\' => some '\\'
  | '/' => some '/'
  | 'b' => some '\x08'
  | 'f' => some '\x0c'
  | 'n' => some '\n'
  | 'r' => some '\r'
  | 't' => some '\t'
  | _ => none

/-- The character that an escape stands for, from the character after the backslash on. -/
def escape : Scan Char := fun text =>
  match text with
  | [] => stop .eofInString []
  | 'u' :: text => unicodeEscape text
  | c :: text =>
    match shortEscape? c with
    | some x => .ok (x, text)
    | none => stopAhead .invalidEscape (c :: text)

/-- Whether a character must be escaped in a string. -/
def isControl (c : Char) : Bool := c.toNat < 0x20

/-- The rest of a string, behind the characters of `done`, which holds the last one first.  Each turn
takes at least one character, so that `text.length` turns are enough. -/
def stringFrom : Nat → List Char → Scan String
  | 0, _, _ => stop .eofInString []
  | fuel + 1, done, text =>
    match text with
    | [] => stop .eofInString []
    | '"' :: text => .ok (String.ofList done.reverse, text)
    | '\\' :: text =>
      match escape text with
      | .ok (c, text) => stringFrom fuel (c :: done) text
      | .error e => .error e
    | c :: text =>
      if isControl c then stop .controlCharacter text else stringFrom fuel (c :: done) text

/-- The contents of a string, from the character after the opening quote on. -/
def string : Scan String := fun text => stringFrom (text.length + 1) [] text

/-- The rest of a string whose contents do not matter: escapes need only look right. -/
def skipStringFrom : Nat → Scan Unit
  | 0, _ => stop .eofInString []
  | fuel + 1, text =>
    match text with
    | [] => stop .eofInString []
    | '"' :: text => .ok ((), text)
    | '\\' :: [] => stop .eofInString []
    | '\\' :: 'u' :: text =>
      match hexEscape text with
      | .ok (_, text) => skipStringFrom fuel text
      | .error e => .error e
    | '\\' :: c :: text =>
      if (shortEscape? c).isSome then skipStringFrom fuel text
      else stopAhead .invalidEscape (c :: text)
    | c :: rest => if isControl c then stop .controlCharacter text else skipStringFrom fuel rest

/-- A string whose contents do not matter, from the character after the opening quote on. -/
def skipString : Scan Unit := fun text => skipStringFrom (text.length + 1) text

/-! ### Digits -/

/-- The value of a decimal digit. -/
def digit? (c : Char) : Option Nat :=
  if '0' ≤ c ∧ c ≤ '9' then some (c.toNat - '0'.toNat) else none

/-- The digits at the front of a text, and the rest. -/
def digits : List Char → List Nat × List Char
  | [] => ([], [])
  | c :: text =>
    match digit? c with
    | some d =>
      let (ds, rest) := digits text
      (d :: ds, rest)
    | none => ([], c :: text)

end Scan

end SnapStore.Json
