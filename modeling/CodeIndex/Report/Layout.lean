/-!
# Columns

Padding texts to the width of a column. A text that is wider than its column stays whole.
-/

namespace CodeIndex.Report

/-- `n` spaces. -/
def spaces (n : Nat) : String :=
  String.ofList (List.replicate n ' ')

/-- The text at the left of a column. -/
def padRight (width : Nat) (s : String) : String :=
  s ++ spaces (width - s.length)

/-- The text at the right of a column. -/
def padLeft (width : Nat) (s : String) : String :=
  spaces (width - s.length) ++ s

end CodeIndex.Report
