import InfixCalculator.Table.Column

/-!
The libraries that the program runs with.
-/
namespace InfixCalculator.Platform

/-- The power of the C library, but for the exponents that have an operation of their
own: a square root keeps the sign of a zero, and minus infinity has none. -/
def power (x y : Float) : Float :=
  if y == 2 then x * x
  else if y == -1 then 1 / x
  else if y == 0.5 then x.sqrt
  else x.pow y

def isNumber : Cell → Bool
  | .number _ => true
  | .nothing | .text _ => false

/-- A column with a number in it holds numbers only, so that what is missing becomes no
number. -/
def tables : TableLibrary where
  placeholder column := if column.any isNumber then .number (0 / 0) else .nothing
  isMissing_placeholder column := by
    split
    · decide +kernel
    · rfl

end InfixCalculator.Platform
