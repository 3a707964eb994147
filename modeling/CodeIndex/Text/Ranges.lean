/-!
# Ranges of characters

Properties of characters given as ranges of code points in ascending order.
-/

namespace CodeIndex.Text

/-- Some range of the table holds the character. -/
def inRanges (table : Array (Nat × Nat)) (c : Char) : Bool :=
  table.any fun (first, last) => first ≤ c.toNat && c.toNat ≤ last

end CodeIndex.Text
