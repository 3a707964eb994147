import CodeIndex.Number.Numeral
/-!
# Cells of a database

A cell holds a text, an integer, a number or nothing. A column has an affinity: what is written to
it takes on the column's kind if it can, so an integer in a text column becomes its decimal text,
and a text in a column of numbers becomes a number when it is the text of one.
-/

namespace CodeIndex.Store

open CodeIndex.Number

/-- What a cell holds. -/
inductive Cell where
  | text (s : String)
  | integer (n : Int)
  | real (x : Binary32)
  | null
  deriving DecidableEq, Repr, Inhabited

/-- The kind that a column gives to what is written to it. -/
inductive Affinity where
  | text
  | integer
  | real
  deriving DecidableEq, Repr

namespace Cell

/-- The name of what a cell holds. -/
def kindName : Cell → String
  | text _ => "Text"
  | integer _ => "Integer"
  | real _ => "Real"
  | null => "Null"

/-! ### Writing to a column -/

/-- An integer as a binary number. -/
def realOfInt (n : Int) : Binary32 :=
  { Binary32.ofNat n.natAbs with negative := n < 0 }

/-- What a column makes of what is written to it. -/
def written (affinity : Affinity) (cell : Cell) : Cell :=
  match affinity, cell with
  | .text, integer n => text (intText n)
  | .text, real x => text x.text
  | .integer, text s =>
    match Numeral.read? s with
    | some x => (x.integer?.map integer).getD (real x.toReal)
    | none => text s
  | .real, integer n => real (realOfInt n)
  | .real, text s => ((Numeral.read? s).map fun x => real x.toReal).getD (text s)
  | _, cell => cell

/-- A text or nothing. -/
def ofText? : Option String → Cell
  | some s => text s
  | none => null

/-- A natural number as the signed integer with the same 64 bits. -/
def ofNat (n : Nat) : Cell := integer (toSigned64 n)

/-- A truth value as one or zero. -/
def ofBool (b : Bool) : Cell := integer (if b then 1 else 0)

/-- Where the cell stands among integers: the integer it holds, or the whole part of its number;
texts come behind all of them. -/
def order : Cell → Int
  | integer n => n
  | text _ => Number.signedBound64
  | real x => withSign x.negative (x.units / Binary32.unitsInOne)
  | null => -Number.signedBound64 - 1

end Cell

end CodeIndex.Store
