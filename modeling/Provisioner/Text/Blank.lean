/-!
# Blank characters and trimming

A character is blank when it has the Unicode property White_Space; there are 25 of them.
Trimming removes a class of characters from both ends of a text and leaves the inside alone.
-/

namespace Provisioner.Text

/-- The characters with the Unicode property White_Space. -/
def isBlank (c : Char) : Bool :=
  let n := c.toNat
  (0x09 ≤ n && n ≤ 0x0D) || n == 0x20 || n == 0x85 || n == 0xA0 || n == 0x1680 ||
    (0x2000 ≤ n && n ≤ 0x200A) || n == 0x2028 || n == 0x2029 || n == 0x202F || n == 0x205F ||
    n == 0x3000

/-- `text` without the characters of class `p` at its two ends. -/
def trimBy (p : Char → Bool) (text : List Char) : List Char :=
  ((text.dropWhile p).reverse.dropWhile p).reverse

@[simp] theorem trimBy_nil (p : Char → Bool) : trimBy p [] = [] := rfl

/-- `text` without the blank characters at its two ends. -/
def trim (text : List Char) : List Char := trimBy isBlank text

end Provisioner.Text
