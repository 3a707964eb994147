/-!
# White space

Which characters count as white space, and what is left of a text without the white space at its
edges. White space is the Unicode property `White_Space`: twenty-five characters, among them the
no-break spaces and the line and paragraph separators. The zero-width space is not one of them.
-/

namespace CodeIndex.Text

/-! ### The property -/

/-- `c` has the Unicode property `White_Space`. -/
def isSpace (c : Char) : Bool :=
  let n := c.toNat
  (9 ≤ n && n ≤ 13) || n == 32 || n == 0x85 || n == 0xA0 || n == 0x1680 ||
    (0x2000 ≤ n && n ≤ 0x200A) || n == 0x2028 || n == 0x2029 || n == 0x202F || n == 0x205F ||
    n == 0x3000

/-! ### Trimming -/

/-- `cs` without the white space in front. -/
def dropSpaces (cs : List Char) : List Char :=
  cs.dropWhile isSpace

/-- `cs` without the white space in front and behind. -/
def trimChars (cs : List Char) : List Char :=
  (dropSpaces (dropSpaces cs).reverse).reverse

/-- `s` without the white space in front and behind. -/
def trim (s : String) : String :=
  String.ofList (trimChars s.toList)

/-- A text is blank when it holds nothing but white space. -/
def isBlank (s : String) : Bool :=
  s.toList.all isSpace

end CodeIndex.Text
