/-!
# Blank characters

The characters that count as white space in names, search terms and settings: the ones of
Unicode's `White_Space` property together with the four information separators. The zero width
space is not one of them.

## Main definitions

* `isBlankPoint`, `isBlank`: one character
* `strip`: a text without the blanks at either end
* `isBlankText`: a text that holds nothing but blanks
-/

namespace Concordance.Text

/-- The blank characters beyond ASCII, as closed ranges of code points. -/
def wideBlanks : List (Nat × Nat) :=
  [(0x85, 0x85), (0xA0, 0xA0), (0x1680, 0x1680), (0x2000, 0x200A), (0x2028, 0x2029),
    (0x202F, 0x202F), (0x205F, 0x205F), (0x3000, 0x3000)]

/-- Whether the character of a code point is white space. -/
def isBlankPoint (n : Nat) : Bool :=
  if n < 0x80 then (0x09 ≤ n && n ≤ 0x0D) || (0x1C ≤ n && n ≤ 0x20)
  else wideBlanks.any fun r => r.1 ≤ n && n ≤ r.2

/-- Whether a character is white space. -/
def isBlank (c : Char) : Bool := isBlankPoint c.toNat

/-- Drop the blanks at either end of a list of characters. -/
def stripChars (cs : List Char) : List Char :=
  ((cs.dropWhile isBlank).reverse.dropWhile isBlank).reverse

/-- Drop the blanks at either end of a text. -/
def strip (s : String) : String := String.ofList (stripChars s.toList)

/-- Whether a text is empty or holds blanks only. -/
def isBlankText (s : String) : Bool := s.toList.all isBlank

theorem stripChars_nil : stripChars [] = [] := rfl

theorem isBlankText_empty : isBlankText "" = true := rfl

end Concordance.Text
