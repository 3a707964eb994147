import CodeIndex.Number.Binary32
import CodeIndex.Number.Signed64
/-!
# Numerals

A numeral is a number as a text writes it: a sign, digits with a point among them, and a power of
ten. It is held exactly, and read as an integer if it is one, or as the nearest binary number.
-/

namespace CodeIndex.Number

/-- An integer with its sign. -/
def withSign (negative : Bool) (n : Nat) : Int := if negative then -(n : Int) else n

/-- A number as a text writes it. -/
structure Numeral where
  negative : Bool
  magnitude : Binary32.Decimal
  deriving Repr

namespace Numeral

/-! ### Reading -/

/-- A text without the blanks at its edges. -/
def trimmed (s : String) : List Char :=
  let blank (c : Char) : Bool := c == ' ' || (9 ≤ c.toNat && c.toNat ≤ 13)
  ((s.toList.dropWhile blank).reverse.dropWhile blank).reverse

/-- Whether a minus sign is in front, and what follows the sign. -/
def splitSign : List Char → Bool × List Char
  | '-' :: rest => (true, rest)
  | '+' :: rest => (false, rest)
  | rest => (false, rest)

/-- The power of ten that ends a number, `e` in front; the empty text is the power zero. -/
def exponentOf? : List Char → Option Int
  | [] => some 0
  | mark :: rest =>
    let (negative, ds) := splitSign rest
    if mark == 'e' || mark == 'E' then (natOfDigits? ds).map (withSign negative) else none

/-- The number that a text writes with digits, a point and a power of ten of up to three digits,
each of them optional but for one digit. -/
def read? (s : String) : Option Numeral :=
  let (negative, cs) := splitSign (trimmed s)
  let whole := cs.takeWhile isDigit
  let rest := cs.dropWhile isDigit
  let (fraction, rest) := match rest with
    | '.' :: rest => (rest.takeWhile isDigit, rest.dropWhile isDigit)
    | rest => ([], rest)
  match exponentOf? rest with
  | none => none
  | some exponent =>
    if (whole.isEmpty && fraction.isEmpty) || 999 < exponent.natAbs then none
    else some ⟨negative, ⟨valueFrom 0 (whole ++ fraction), fraction.length - exponent⟩⟩

/-! ### Values -/

/-- The integer that a number is, if it is one of 64 bits. -/
def integer? (x : Numeral) : Option Int :=
  let scale := tenTo x.magnitude.places.natAbs
  let n := x.magnitude.significand
  let n? :=
    if x.magnitude.places ≤ 0 then some (n * scale)
    else if n % scale = 0 then some (n / scale) else none
  (n?.map (withSign x.negative)).filter fun n => -signedBound64 ≤ n && n < signedBound64

/-- The binary number nearest to a number. -/
def toReal (x : Numeral) : Binary32 :=
  { x.magnitude.toBinary32 with negative := x.negative }

end Numeral

end CodeIndex.Number
