import SnapStore.Json.Number

namespace SnapStore.Json.Scan

/-!
# Skipping JSON values

A value that nobody asked for must still be JSON, except that the escapes in its strings are not put
together.  `skipValue` skips one; `skipItems` and `skipMembers` skip what stands between brackets.

Every two turns take at least one character, so that twice the length of the text is enough of them.
-/

mutual

/-- Skips a value. -/
def skipValueFrom : Nat → Scan Unit
  | 0, _ => stop .eofInValue []
  | fuel + 1, text =>
    match skipSpace text with
    | [] => stopAhead .eofInValue []
    | 'n' :: text => word ['u', 'l', 'l'] text
    | 't' :: text => word ['r', 'u', 'e'] text
    | 'f' :: text => word ['a', 'l', 's', 'e'] text
    | '-' :: text => skipNumber text
    | '"' :: text => skipString text
    | '[' :: text => skipItems fuel true text
    | '\x7b' :: text => skipMembers fuel true text
    | c :: text => if (digit? c).isSome then skipNumber (c :: text) else stopAhead .expectedValue (c :: text)

/-- Skips the items of a list, from the first one or from behind one on. -/
def skipItems : Nat → Bool → Scan Unit
  | 0, _, _ => stop .eofInList []
  | fuel + 1, first, text =>
    let item (text : List Char) : Except Stop (Unit × List Char) :=
      match skipValueFrom fuel text with
      | .ok (_, text) => skipItems fuel false text
      | .error e => .error e
    match skipSpace text with
    | [] => stopAhead .eofInList []
    | ']' :: text => .ok ((), text)
    | c :: text =>
      if first then item (c :: text)
      else if c = ',' then item text
      else stopAhead .expectedListCommaOrEnd (c :: text)

/-- Skips the members of an object, from the first one or from behind one on. -/
def skipMembers : Nat → Bool → Scan Unit
  | 0, _, _ => stop .eofInObject []
  | fuel + 1, first, text =>
    let member (text : List Char) : Except Stop (Unit × List Char) :=
      match skipSpace text with
      | [] => stopAhead .eofInObject []
      | '"' :: text =>
        match skipString text with
        | .error e => .error e
        | .ok (_, text) =>
          match skipSpace text with
          | [] => stopAhead .eofInObject []
          | ':' :: text =>
            match skipValueFrom fuel text with
            | .ok (_, text) => skipMembers fuel false text
            | .error e => .error e
          | text => stopAhead .expectedColon text
      | text => stopAhead .keyNotString text
    match skipSpace text with
    | [] => stopAhead .eofInObject []
    | '\x7d' :: text => .ok ((), text)
    | c :: text =>
      if first then member (c :: text)
      else if c = ',' then member text
      else stopAhead .expectedObjectCommaOrEnd (c :: text)

end

/-- Skips a value. -/
def skipValue : Scan Unit := fun text => skipValueFrom (2 * text.length + 2) text

end SnapStore.Json.Scan
