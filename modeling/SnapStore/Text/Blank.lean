namespace SnapStore.Text

/-!
# Blank characters

A character is blank if Unicode gives it the property `White_Space`; `trim` takes blank characters
off both ends of a text and touches nothing between them.
-/

/-- Whether a character is blank. -/
def isBlank (c : Char) : Bool :=
  let n := c.toNat
  (0x9 ≤ n && n ≤ 0xd) || n == 0x20 || n == 0x85 || n == 0xa0 || n == 0x1680 ||
    (0x2000 ≤ n && n ≤ 0x200a) || n == 0x2028 || n == 0x2029 || n == 0x202f || n == 0x205f ||
    n == 0x3000

/-- The characters without blank ones at the front. -/
def trimStart (cs : List Char) : List Char := cs.dropWhile isBlank

/-- The characters without blank ones at either end. -/
def trimChars (cs : List Char) : List Char := (trimStart (trimStart cs).reverse).reverse

/-- A text without blank characters at either end. -/
def trim (s : String) : String := String.ofList (trimChars s.toList)

end SnapStore.Text
