namespace SnapStore.Json

/-!
# JSON documents

`Document.pretty` writes a document with one member to a line, indented by two blanks for each object
around it.  In texts, quotes, backslashes and control characters are escaped, and nothing else.
-/

/-- What a report consists of. -/
inductive Document
  | null
  | bool (b : Bool)
  | number (n : Nat)
  | text (s : String)
  | object (members : List (String × Document))
  deriving Inhabited

/-- A digit in hexadecimal. -/
def hexDigit (n : Nat) : Char := Nat.digitChar n

/-- A character as it stands in a text. -/
def escapeChar (c : Char) : List Char :=
  match c with
  | '"' => ['\\', '"']
  | '\\' => ['\\', '\\']
  | '\n' => ['\\', 'n']
  | '\r' => ['\\', 'r']
  | '\t' => ['\\', 't']
  | '\x08' => ['\\', 'b']
  | '\x0c' => ['\\', 'f']
  | c =>
    if c.toNat < 0x20 then ['\\', 'u', '0', '0', hexDigit (c.toNat / 16), hexDigit (c.toNat % 16)]
    else [c]

/-- A text with its quotes. -/
def escape (s : String) : String := String.ofList ('"' :: s.toList.flatMap escapeChar ++ ['"'])

/-- The start of a line inside so many objects. -/
def margin (depth : Nat) : String := String.ofList (List.replicate (2 * depth) ' ')

mutual

/-- A document inside so many objects. -/
def Document.pretty (depth : Nat) : Document → String
  | .null => "null"
  | .bool b => if b then "true" else "false"
  | .number n => toString n
  | .text s => escape s
  | .object [] => "\x7b\x7d"
  | .object (m :: ms) =>
    "\x7b\n" ++ Document.prettyMember (depth + 1) m ++ Document.prettyRest (depth + 1) ms ++ "\n" ++
      margin depth ++ "\x7d"
termination_by structural d => d

/-- The members after the first one, each behind a comma. -/
def Document.prettyRest (depth : Nat) : List (String × Document) → String
  | [] => ""
  | m :: ms => ",\n" ++ Document.prettyMember depth m ++ Document.prettyRest depth ms
termination_by structural ms => ms

/-- A member on a line of its own. -/
def Document.prettyMember (depth : Nat) : String × Document → String
  | (name, value) => margin depth ++ escape name ++ ": " ++ value.pretty depth
termination_by structural m => m

end

end SnapStore.Json
