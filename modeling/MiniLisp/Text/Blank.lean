/-! # Unicode white space

The White_Space property of Unicode 15.0, which a line is trimmed of before it is judged
blank: the ASCII blanks `\t \n \x0b \x0c \r` and space, next line, no-break space and the
other spaces and separators.
-/

namespace MiniLisp.Text

/-- Ascending, disjoint ranges of the code points with the White_Space property. -/
def blankRanges : List (Nat × Nat) := [
  (0x9, 0xD), (0x20, 0x20), (0x85, 0x85), (0xA0, 0xA0), (0x1680, 0x1680), (0x2000, 0x200A),
  (0x2028, 0x2029), (0x202F, 0x202F), (0x205F, 0x205F), (0x3000, 0x3000)]

/-- The character is Unicode white space. -/
def isBlank (c : Char) : Bool := blankRanges.any fun (lo, hi) => lo ≤ c.toNat && c.toNat ≤ hi

/-- The text consists of white space only. -/
def isBlankText (s : String) : Bool := s.toList.all isBlank

end MiniLisp.Text
