import InfixCalculator.Decimal.Shortest

/-!
Two ways to write a double with its shortest digits: as an answer, where very
large and very small numbers get an exponent, and as a literal, which never has
one.
-/
namespace InfixCalculator

/-- The sign, if there is one, before the text of the size. -/
def signed (x : Float) (size : String) : String :=
  if hasSignBit x then "-" ++ size else size

/-- One digit, the others after a point, and an exponent of at least two digits
with its sign. -/
def exponentText (d : Decimal) : String :=
  let exponent := d.leadingExponent
  let mark := if exponent < 0 then "e-" else "e+"
  let size := Nat.toDigits 10 exponent.natAbs
  let padded := if size.length < 2 then '0' :: size else size
  let fraction := match d.digits.tail with
    | [] => []
    | rest => '.' :: rest
  String.ofList (d.digits.take 1 ++ fraction) ++ mark ++ String.ofList padded

def pointText (d : Decimal) : String :=
  let text := String.ofList d.numeral.text
  if d.numeral.places = 0 then text ++ ".0" else text

/-- A double as an answer: with an exponent only below `10 ^ -4` and from
`10 ^ 16` on. -/
def answerText (x : Float) : String :=
  match Magnitude.ofFloat x with
  | .notANumber => "nan"
  | .infinite => signed x "inf"
  | .finite significand _ =>
    let d := shortestDecimal x
    if significand = 0 ∨ (-4 ≤ d.leadingExponent ∧ d.leadingExponent < 16) then
      signed x (pointText d)
    else signed x (exponentText d)

/-- A double as a literal: all digits in their places, and no point unless
digits follow it. -/
def literalText (x : Float) : String :=
  match Magnitude.ofFloat x with
  | .notANumber => "nan"
  | .infinite => signed x "inf"
  | .finite _ _ => signed x (String.ofList (shortestDecimal x).numeral.text)

end InfixCalculator
