/-!
The parts of a double: its sign, and a magnitude that is a whole number times a
power of two unless it is infinite or no number at all.
-/
namespace InfixCalculator

inductive Magnitude where
  | notANumber
  | infinite
  | finite (significand : Nat) (exponent : Int)
  deriving DecidableEq, Repr

/-- Eleven bits of exponent and fifty-two of fraction. The lowest exponent marks
the numbers without a leading one, the highest what is not finite. -/
def Magnitude.ofFloat (x : Float) : Magnitude :=
  let bits := x.toBits.toNat
  let field : Nat := bits / Nat.pow 2 52 % Nat.pow 2 11
  let fraction : Nat := bits % Nat.pow 2 52
  if field = 2047 then
    if fraction = 0 then .infinite else .notANumber
  else if field = 0 then .finite fraction (-1074)
  else .finite (Nat.pow 2 52 + fraction) ((field : Int) - 1075)

/-- The highest bit is set, also for a zero. -/
def hasSignBit (x : Float) : Bool := x.toBits.toNat / Nat.pow 2 63 == 1

end InfixCalculator
