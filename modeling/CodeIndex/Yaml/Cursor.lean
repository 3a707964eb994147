/-!
# Reading positions

A cursor is what is left of a text together with the line and the column that were reached. Line
breaks are those of YAML 1.1: carriage return, line feed, both in this order, next line, and the
line and paragraph separators.
-/

namespace CodeIndex.Yaml

/-! ### Characters -/

/-- The character ends a line. -/
def isBreak (c : Char) : Bool :=
  c == '\n' || c == '\r' || c == '\x85' || c == '\u2028' || c == '\u2029'

/-- The character is a space or a tab. -/
def isBlank (c : Char) : Bool :=
  c == ' ' || c == '\t'

/-- A word ends in front of the character, or at the end of the text. -/
def endsWord (c : Option Char) : Bool :=
  c.all fun c => isBlank c || isBreak c

/-- The character may be part of a name. -/
def isNameChar (c : Char) : Bool :=
  c.isAlphanum || c == '_' || c == '-'

/-- The character may stand in a text at all. -/
def isPrintable (c : Char) : Bool :=
  let n := c.toNat
  n == 0x9 || n == 0xA || n == 0xD || (0x20 ≤ n && n ≤ 0x7E) || n == 0x85 ||
    (0xA0 ≤ n && n ≤ 0xD7FF) || (0xE000 ≤ n && n ≤ 0xFFFD) || (0x10000 ≤ n && n ≤ 0x10FFFF)

/-! ### Cursors -/

/-- A place in a text. -/
structure Cursor where
  rest : List Char
  /-- The characters that were passed. -/
  index : Nat
  line : Nat
  column : Nat
  deriving Repr

namespace Cursor

/-- The beginning of a text. -/
def ofText (cs : List Char) : Cursor := ⟨cs, 0, 0, 0⟩

/-- The next character. -/
def peek (c : Cursor) : Option Char := c.rest.head?

/-- The character that comes `n` characters later. -/
def peekAt (c : Cursor) (n : Nat) : Option Char := c.rest[n]?

/-- Passes `n` characters of the line. -/
def skip (c : Cursor) (n : Nat) : Cursor :=
  ⟨c.rest.drop n, c.index + n, c.line, c.column + n⟩

/-- Passes the characters of the line that satisfy `p`; no line break may satisfy it. -/
def takeWhile (c : Cursor) (p : Char → Bool) : List Char × Cursor :=
  let taken := c.rest.takeWhile p
  (taken, c.skip taken.length)

/-- Passes a line break. The answer has the text that the break stands for. -/
def takeBreak (c : Cursor) : List Char × Cursor :=
  match c.rest with
  | '\r' :: '\n' :: rest => (['\n'], ⟨rest, c.index + 2, c.line + 1, 0⟩)
  | b :: rest =>
    (if b == '\u2028' || b == '\u2029' then [b] else ['\n'], ⟨rest, c.index + 1, c.line + 1, 0⟩)
  | [] => ([], c)

/-- A line break that is passed makes the rest shorter. -/
theorem length_takeBreak_lt {c : Cursor} (h : c.rest ≠ []) :
    c.takeBreak.2.rest.length < c.rest.length := by
  obtain ⟨rest, index, line, column⟩ := c
  unfold takeBreak
  split
  · rename_i heq
    simp only at heq
    subst heq
    simp only [List.length_cons]
    omega
  · rename_i heq
    simp only at heq
    subst heq
    simp
  · rename_i heq
    exact absurd heq h

/-- The next character is a line break. -/
def atBreak (c : Cursor) : Bool := c.peek.any isBreak

/-- The next character is a space or a tab. -/
def atBlank (c : Cursor) : Bool := c.peek.any isBlank

/-- The text or the line ends here. -/
def atLineEnd (c : Cursor) : Bool := c.peek.all isBreak

/-- A line of three characters `mark` that stands for itself begins here. -/
def atMark (c : Cursor) (mark : Char) : Bool :=
  c.column == 0 && c.rest.take 3 == [mark, mark, mark] && endsWord (c.peekAt 3)

/-- A line that separates documents begins here. -/
def atDocumentMark (c : Cursor) : Bool := c.atMark '-' || c.atMark '.'

/-- Passes the rest of the line, but not the line break. -/
def skipLine (c : Cursor) : Cursor := (c.takeWhile fun x => !isBreak x).2

end Cursor

end CodeIndex.Yaml
