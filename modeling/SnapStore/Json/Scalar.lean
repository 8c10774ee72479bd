import SnapStore.Json.Skip

namespace SnapStore.Json.Scan

/-!
# Scalars of an expected type

Each scanner here skips blanks, scans a value of its type, and otherwise says what it found instead.
Numbers are checked against a range; a number without a fraction that is out of range is a wrong value,
a number that is written like a fraction is of a wrong type.
-/

/-- Fails because the value in front has another type.  Lists and objects are not looked into; what is
no value at all is a fault of its own. -/
def mistyped {α : Type} (expected : String) : Scan α := fun text =>
  let found {β : Type} (f : Found) (rest : List Char) : Except Stop (β × List Char) :=
    stop (.invalidType f expected) rest
  match text with
  | 'n' :: text => do
    let (_, rest) ← word ['u', 'l', 'l'] text
    found .null rest
  | 't' :: text => do
    let (_, rest) ← word ['r', 'u', 'e'] text
    found (.bool true) rest
  | 'f' :: text => do
    let (_, rest) ← word ['a', 'l', 's', 'e'] text
    found (.bool false) rest
  | '-' :: text => do
    let (n, rest) ← number false text
    found n.toFound rest
  | '"' :: text => do
    let (s, rest) ← string text
    found (.string s) rest
  | '[' :: _ => found .sequence text
  | '\x7b' :: _ => found .map text
  | [] => stopAhead .expectedValue []
  | c :: _ =>
    if (digit? c).isSome then do
      let (n, rest) ← number true text
      found n.toFound rest
    else stopAhead .expectedValue text

/-- Scans from the next token on, which must be there. -/
def token {α : Type} (scan : Scan α) : Scan α := fun text =>
  match skipSpace text with
  | [] => stopAhead .eofInValue []
  | text => scan text

/-- A truth value. -/
def bool : Scan Bool := token fun text =>
  match text with
  | 't' :: text => do
    let (_, rest) ← word ['r', 'u', 'e'] text
    pure (true, rest)
  | 'f' :: text => do
    let (_, rest) ← word ['a', 'l', 's', 'e'] text
    pure (false, rest)
  | text => mistyped "a boolean" text

/-- An integer of the type `expected`, which ranges from `low` to `high`. -/
def integer (expected : String) (low high : Int) : Scan Int := token fun text => do
  let check (r : Number × List Char) : Except Stop (Int × List Char) :=
    let (n, rest) := r
    let inRange (i : Int) : Except Stop (Int × List Char) :=
      if low ≤ i ∧ i ≤ high then .ok (i, rest) else stop (.invalidValue n.toFound expected) rest
    match n with
    | .unsigned n => inRange n
    | .signed i => inRange i
    | .float _ => stop (.invalidType n.toFound expected) rest
  match text with
  | '-' :: text => check (← number false text)
  | c :: _ =>
    if (digit? c).isSome then check (← number true text) else mistyped expected text
  | [] => mistyped expected text

/-- A string, of which a message says that it is `expected`. -/
def text (expected : String) : Scan String := token fun text =>
  match text with
  | '"' :: text => string text
  | text => mistyped expected text

/-- A value or null. -/
def nullable {α : Type} (scan : Scan α) : Scan (Option α) := fun text =>
  match skipSpace text with
  | 'n' :: text => do
    let (_, rest) ← word ['u', 'l', 'l'] text
    pure (none, rest)
  | text => do
    let (a, rest) ← scan text
    pure (some a, rest)

end SnapStore.Json.Scan
