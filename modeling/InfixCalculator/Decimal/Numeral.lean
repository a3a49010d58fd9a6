/-!
Decimal numerals: digits with at most one point among them, no sign and no
exponent. A numeral is kept as the natural number of its digits and the count
of those after the point.
-/
namespace InfixCalculator

structure Numeral where
  mantissa : Nat
  places : Nat
  deriving DecidableEq, Repr

namespace Numeral

def ofDigits (digits : List Char) : Nat :=
  digits.foldl (fun n c => 10 * n + (c.toNat - '0'.toNat)) 0

/-- Digits, digits and a point, or a point and digits, possibly with digits on
both sides of the point. Only the ASCII digits count. -/
def read? (text : List Char) : Option Numeral :=
  let whole := text.takeWhile Char.isDigit
  match text.dropWhile Char.isDigit with
  | [] => if whole.isEmpty then none else some ⟨ofDigits whole, 0⟩
  | c :: fraction =>
    if c = '.' ∧ fraction.all Char.isDigit ∧ ¬(whole.isEmpty ∧ fraction.isEmpty) then
      some ⟨ofDigits (whole ++ fraction), fraction.length⟩
    else none

/-- The digits with the point in its place; no point when nothing follows it. -/
def text (n : Numeral) : List Char :=
  let digits := Nat.toDigits 10 n.mantissa
  if n.places = 0 then digits
  else
    let padded := List.replicate (n.places + 1 - digits.length) '0' ++ digits
    let whole := padded.length - n.places
    padded.take whole ++ '.' :: padded.drop whole

/-- The double nearest to the numeral. -/
def value (n : Numeral) : Float :=
  Float.ofScientific n.mantissa true n.places

@[simp] theorem ofDigits_nil : ofDigits [] = 0 := rfl
@[simp] theorem read?_nil : read? [] = none := rfl

end Numeral

end InfixCalculator
