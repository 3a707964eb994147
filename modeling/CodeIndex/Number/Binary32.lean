import CodeIndex.Number.Decimal
/-!
# Binary floating point with 32 bits

Finite binary32 numbers, held exactly. Every such number is a whole multiple of the smallest
positive one, 2⁻¹⁴⁹, so a magnitude is a natural number of these units. Of all natural numbers only
those are magnitudes that have at most 24 significant bits; `roundUnits` takes a quotient to the
nearest of them, a tie to the even one, and all arithmetic is exact arithmetic followed by it.

Infinities and what is not a number are left out. Confidences are the only numbers of this kind, and
they are quotients that are finite.
-/

namespace CodeIndex.Number

/-- A finite binary32 number: a sign and a magnitude counted in units of 2⁻¹⁴⁹. -/
structure Binary32 where
  negative : Bool
  units : Nat
  deriving DecidableEq, Repr, Inhabited

namespace Binary32

/-! ### Rounding -/

/-- The units in the number one. -/
def unitsInOne : Nat := Nat.pow 2 149

/-- How many low bits `n` has beyond the 24 that a number keeps. -/
def excessBits (n : Nat) : Nat :=
  Nat.log2 n + 1 - 24

/-- `num / den`, counted in units, rounded to 24 significant bits; a tie goes to the even one. -/
def roundUnits (num den : Nat) : Nat :=
  let shift := Nat.pow 2 (excessBits (num / den))
  roundHalfEven num (den * shift) * shift

/-- The number nearest to `num / den`. -/
def ofRatio (num den : Nat) : Binary32 :=
  ⟨false, roundUnits (num * unitsInOne) den⟩

/-- The number nearest to a natural number. -/
def ofNat (n : Nat) : Binary32 :=
  ofRatio n 1

/-! ### Arithmetic on magnitudes -/

/-- The quotient of two numbers that are not negative. -/
def div (x y : Binary32) : Binary32 :=
  ofRatio x.units y.units

/-- The greater of two numbers that are not negative. -/
def max (x y : Binary32) : Binary32 :=
  if x.units < y.units then y else x

/-! ### Decimal text -/

/-- A decimal number: `significand` with the point moved `places` to the left, or to the right when
negative. -/
structure Decimal where
  significand : Nat
  places : Int
  deriving Repr

/-- The number nearest to a decimal. -/
def Decimal.toBinary32 (d : Decimal) : Binary32 :=
  if d.places < 0 then ofRatio (d.significand * tenTo d.places.natAbs) 1
  else ofRatio d.significand (tenTo d.places.natAbs)

/-- The two neighbours of `units` among the decimals with `places` places, the lower first. -/
def neighbours (units : Nat) (places : Int) : Decimal × Decimal :=
  let low :=
    if places < 0 then units / (unitsInOne * tenTo places.natAbs)
    else units * tenTo places.natAbs / unitsInOne
  (⟨low, places⟩, ⟨low + 1, places⟩)

/-- `units` is nearer to the upper neighbour than to the lower one. -/
def upperNearer (units : Nat) (low : Decimal) : Bool :=
  if low.places < 0 then
    2 * units > (2 * low.significand + 1) * (unitsInOne * tenTo low.places.natAbs)
  else
    2 * units * tenTo low.places.natAbs > (2 * low.significand + 1) * unitsInOne

/-- The neighbour with `places` places that reads back as `units`; of two, the nearer. -/
def readsBack? (units : Nat) (places : Int) : Option Decimal :=
  let (low, high) := neighbours units places
  let lowHit := low.toBinary32.units == units
  let highHit := high.toBinary32.units == units
  if lowHit && highHit then some (if upperNearer units low then high else low)
  else if lowHit then some low
  else if highHit then some high
  else none

/-- The first decimal that reads back as `units`, trying `places`, `places + 1`, … -/
def shortestFrom (units : Nat) (places : Int) : Nat → Decimal
  | 0 => ⟨0, 0⟩
  | tries + 1 =>
    match readsBack? units places with
    | some d => d
    | none => shortestFrom units (places + 1) tries

/-- The decimal with the fewest digits that reads back as the number. The search begins with one
digit in front of the number's first one, and nine digits are always enough. -/
def shortest (x : Binary32) : Decimal :=
  if x.units = 0 then ⟨0, 0⟩
  else
    let whole := x.units / unitsInOne
    if 0 < whole then shortestFrom x.units (-((digits whole).length : Int)) 12
    else
      let inverse := unitsInOne / x.units
      shortestFrom x.units ((digits inverse).length - 1 : Int) 12

/-- A decimal in positional notation, with at least one digit on both sides of the point. -/
def Decimal.text (d : Decimal) : String :=
  if d.places ≤ 0 then String.ofList (digits (d.significand * tenTo d.places.natAbs) ++ ['.', '0'])
  else
    let n := d.places.natAbs
    let cs := paddedDigits (n + 1) d.significand
    String.ofList (cs.take (cs.length - n) ++ '.' :: cs.drop (cs.length - n))

/-- The shortest decimal text that reads back as the number. -/
def text (x : Binary32) : String :=
  (if x.negative then "-" else "") ++ x.shortest.text

/-- The number with exactly two decimal places; the exact value is rounded, a tie to the even
digit. -/
def fixed2 (x : Binary32) : String :=
  let hundredths := roundHalfEven (x.units * 100) unitsInOne
  (if x.negative then "-" else "") ++ Decimal.text ⟨hundredths, 2⟩

end Binary32

end CodeIndex.Number
