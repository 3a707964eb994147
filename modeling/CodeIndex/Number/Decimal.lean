/-!
# Decimal text

Natural numbers and integers as decimal digits, and the reading of them.
-/

namespace CodeIndex.Number

/-! ### Writing -/

/-- The decimal digits of `n`, without leading zeros. -/
def digits (n : Nat) : List Char :=
  Nat.toDigits 10 n

/-- `n` as decimal text. -/
def natText (n : Nat) : String :=
  String.ofList (digits n)

/-- `n` as decimal text, a negative number with a minus sign. -/
def intText (n : Int) : String :=
  if n < 0 then String.ofList ('-' :: digits n.natAbs) else natText n.natAbs

/-- The digits of `n`, filled up with zeros in front to at least `width`. -/
def paddedDigits (width n : Nat) : List Char :=
  let ds := digits n
  List.replicate (width - ds.length) '0' ++ ds

/-- `n` with at least `width` digits. -/
def paddedText (width n : Nat) : String :=
  String.ofList (paddedDigits width n)

/-! ### Reading -/

/-- `c` is an ASCII digit. -/
def isDigit (c : Char) : Bool :=
  '0' ≤ c && c ≤ '9'

/-- The value of an ASCII digit. -/
def digitValue (c : Char) : Nat :=
  c.toNat - 48

/-- The number that digits write, read after `acc`. -/
def valueFrom (acc : Nat) : List Char → Nat
  | [] => acc
  | c :: rest => valueFrom (acc * 10 + digitValue c) rest

/-- The number that `cs` writes when it is one digit or more and nothing else. -/
def natOfDigits? (cs : List Char) : Option Nat :=
  if cs.isEmpty || !cs.all isDigit then none else some (valueFrom 0 cs)

/-- The power of ten with `n` zeros. -/
def tenTo (n : Nat) : Nat := Nat.pow 10 n

/-! ### Division with rounding -/

/-- `num / den` rounded to the nearest natural number, a tie to the even one. -/
def roundHalfEven (num den : Nat) : Nat :=
  let q := num / den
  let r := num % den
  if 2 * r < den then q
  else if den < 2 * r then q + 1
  else if q % 2 = 0 then q else q + 1

end CodeIndex.Number
