/-!
# Blank characters

The characters that trimming removes from the ends of a text: all kinds of space, the line and
paragraph separators, and the controls that move the cursor or separate records.
-/

set_option autoImplicit false

namespace Quarry.Text

/-- Whether trimming removes the character. -/
def isBlank (c : Char) : Bool :=
  let n := c.toNat
  (0x09 <= n && n <= 0x0D) || (0x1C <= n && n <= 0x20) || n == 0x85 || n == 0xA0 || n == 0x1680 ||
    (0x2000 <= n && n <= 0x200A) || n == 0x2028 || n == 0x2029 || n == 0x202F || n == 0x205F ||
    n == 0x3000

/-- The text without the blanks in front of it. -/
def trimLeft (cs : List Char) : List Char := cs.dropWhile isBlank

/-- What is left of items when those of a kind are dropped at both ends. -/
def trimBy {α : Type} (drops : α → Bool) (items : List α) : List α :=
  ((items.dropWhile drops).reverse.dropWhile drops).reverse

/-- The text without the blanks around it. -/
def trim (cs : List Char) : List Char := trimBy isBlank cs

end Quarry.Text
