/-
Multistage.Text.Blank — characters that count as blank, and trimming.

The white space of Unicode is blank everywhere; zero-width characters are
not.  Around words the four information separators U+001C to U+001F are blank
as well, around numerals they are not.
-/

namespace Multistage.Text

/-- White space as inclusive ranges of code points. -/
def spaceRanges : List (Nat × Nat) :=
  [(0x09, 0x0D), (0x20, 0x20), (0x85, 0x85), (0xA0, 0xA0), (0x1680, 0x1680),
   (0x2000, 0x200A), (0x2028, 0x2029), (0x202F, 0x202F), (0x205F, 0x205F),
   (0x3000, 0x3000)]

/-- True of white space, which may stand around a numeral. -/
def isSpace (c : Char) : Bool :=
  spaceRanges.any fun (first, last) => first ≤ c.toNat && c.toNat ≤ last

/-- True of what may stand around a word: white space and the information
separators. -/
def isBlank (c : Char) : Bool := isSpace c || (0x1C ≤ c.toNat && c.toNat ≤ 0x1F)

/-- The characters without those of a kind at both ends. -/
def trimChars (drop : Char → Bool) (cs : List Char) : List Char :=
  ((cs.dropWhile drop).reverse.dropWhile drop).reverse

/-- The text without the blanks at both ends. -/
def trim (s : String) : String := String.ofList (trimChars isBlank s.toList)

end Multistage.Text
