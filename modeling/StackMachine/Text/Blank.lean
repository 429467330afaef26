import StackMachine.Text.Letter

/-!
# White space

The blank characters are those with the Unicode property `White_Space`.
-/

namespace StackMachine

def isBlank (c : Char) : Bool :=
  let n := c.toNat
  (0x09 ≤ n && n ≤ 0x0D) || n == 0x20 || n == 0x85 || n == 0xA0 || n == 0x1680 ||
    (0x2000 ≤ n && n ≤ 0x200A) || n == 0x2028 || n == 0x2029 || n == 0x202F || n == 0x205F ||
    n == 0x3000

/-- Stray bytes are not blank. -/
def Letter.isBlank : Letter → Bool
  | char c => StackMachine.isBlank c
  | stray _ => false

namespace Text

/-- The text without the blanks at its two ends. -/
def trim (t : Text) : Text :=
  ((t.dropWhile Letter.isBlank).reverse.dropWhile Letter.isBlank).reverse

/-- The maximal runs of letters that are not blank. -/
def words (t : Text) : List Text := (t.splitOnP Letter.isBlank).filter (· ≠ [])

end Text

end StackMachine
