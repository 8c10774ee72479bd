import SnapStore.Text.Printable

namespace SnapStore.Text

/-!
# Quoted texts

`quote` writes a text between double quotes, so that it fits on one line and no character is hidden:
quotes and backslashes are escaped, the usual control characters have a letter, and other characters
that are not printable are written as their code point in hexadecimal.
-/

/-- The digits of a number in hexadecimal, without leading zeros. -/
def hexDigits (n : Nat) : List Char := Nat.toDigits 16 n

/-- A character as it stands in a quoted text. -/
def quoteChar (c : Char) : List Char :=
  match c with
  | '\x00' => ['\\', '0']
  | '\t' => ['\\', 't']
  | '\r' => ['\\', 'r']
  | '\n' => ['\\', 'n']
  | '"' => ['\\', '"']
  | '\\' => ['\\', '\\']
  | c => if isPrintable c then [c] else ['\\', 'u', '\x7b'] ++ hexDigits c.toNat ++ ['\x7d']

/-- A text in quotes. -/
def quote (s : String) : String := String.ofList ('"' :: s.toList.flatMap quoteChar ++ ['"'])

end SnapStore.Text
