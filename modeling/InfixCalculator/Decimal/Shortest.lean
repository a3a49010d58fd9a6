import InfixCalculator.Decimal.Numeral
import InfixCalculator.Decimal.Binary64

/-!
The shortest decimal that names a double. A count of digits fixes a grid of
decimals around the double; the fewest digits for which one of the two grid
points beside it reads back to it are taken, the nearer point before the
farther one, and an even one in the middle.
-/
namespace InfixCalculator

/-- A whole number times a power of ten. -/
structure Decimal where
  significand : Nat
  exponent : Int
  deriving DecidableEq, Repr

namespace Decimal

def reduced (significand : Nat) (exponent : Int) : Decimal :=
  if 0 < significand ∧ significand % 10 = 0 then reduced (significand / 10) (exponent + 1)
  else ⟨significand, exponent⟩
termination_by significand

/-- The decimal written with a point and without an exponent. -/
def numeral (d : Decimal) : Numeral :=
  ⟨d.significand * Nat.pow 10 d.exponent.toNat, (-d.exponent).toNat⟩

def digits (d : Decimal) : List Char := Nat.toDigits 10 d.significand

/-- The power of ten of the first digit. -/
def leadingExponent (d : Decimal) : Int := d.digits.length - 1 + d.exponent

end Decimal

/-- The power of ten of the first digit of a positive quotient. -/
def quotientExponent (numerator denominator : Nat) : Int :=
  if denominator ≤ numerator then (Nat.toDigits 10 (numerator / denominator)).length - 1
  else -(Nat.toDigits 10 ((denominator - 1) / numerator)).length

/-- The whole numbers beside a quotient, the nearer one first. -/
def neighbours (numerator denominator : Nat) : List Nat :=
  let low := numerator / denominator
  let twice := 2 * (numerator % denominator)
  if twice = 0 then [low]
  else if twice < denominator ∨ (twice = denominator ∧ low % 2 = 0) then [low, low + 1]
  else [low + 1, low]

/-- The decimals beside a positive quotient on the grid of so many digits. -/
def gridPoints (numerator denominator digits : Nat) : List Decimal :=
  let exponent := quotientExponent numerator denominator + 1 - digits
  (neighbours (numerator * Nat.pow 10 (-exponent).toNat)
    (denominator * Nat.pow 10 exponent.toNat)).map (Decimal.reduced · exponent)

/-- A whole number times a power of two, as a decimal. -/
def exactDecimal (significand : Nat) (exponent : Int) : Decimal :=
  Decimal.reduced (significand * Nat.pow 2 exponent.toNat * Nat.pow 5 (-exponent).toNat)
    (min exponent 0)

/-- The decimal of fewest digits that reads back to the size of a finite double.
Seventeen digits are always enough; the exact decimal stands for the case that
they were not. -/
def shortestDecimal (x : Float) : Decimal :=
  match Magnitude.ofFloat x with
  | .finite significand exponent =>
    if significand = 0 then ⟨0, 0⟩
    else
      let numerator := significand * Nat.pow 2 exponent.toNat
      let denominator := Nat.pow 2 (-exponent).toNat
      let found := (List.range 17).findSome? fun n =>
        (gridPoints numerator denominator (n + 1)).find? (·.numeral.value = x.abs)
      found.getD (exactDecimal significand exponent)
  | _ => ⟨0, 0⟩

end InfixCalculator
