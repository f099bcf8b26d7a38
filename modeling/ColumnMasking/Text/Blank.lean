/-
ColumnMasking.Text.Blank — white space, and text without the white
space around it.

White space is the property of that name in the Unicode character
database: twenty-five characters, listed here as ranges.
-/

namespace ColumnMasking.Blank

/-- The white space characters, as ranges of code points. -/
def ranges : List (Nat × Nat) :=
  [(0x09, 0x0D), (0x20, 0x20), (0x85, 0x85), (0xA0, 0xA0), (0x1680, 0x1680),
   (0x2000, 0x200A), (0x2028, 0x2029), (0x202F, 0x202F), (0x205F, 0x205F), (0x3000, 0x3000)]

/-- A white space character. -/
def isBlank (c : Char) : Bool :=
  ranges.any fun r => r.1 ≤ c.toNat && c.toNat ≤ r.2

/-- The characters without the white space before and after them. -/
def trimChars (cs : List Char) : List Char :=
  ((cs.dropWhile isBlank).reverse.dropWhile isBlank).reverse

/-- The text without the white space before and after it. -/
def trim (text : String) : String :=
  String.ofList (trimChars text.toList)

end ColumnMasking.Blank
