import InfixCalculator.Operator
import InfixCalculator.Decimal.Layout

/-!
The tokens of an expression: operands, which are doubles, and operators with the
parentheses among them.
-/
namespace InfixCalculator

/-- Two tokens are equal when they are operands that compare equal as numbers or
the same operator. So no operand that is not a number equals anything, and the
two zeros equal each other. -/
inductive Token where
  | operand (value : Float)
  | operator (op : Operator)
  deriving BEq, Repr

namespace Token

def describe : Token → String
  | .operand value => "Token(operand, " ++ answerText value ++ ")"
  | .operator op => "Token(operator, '" ++ op.symbol.toString ++ "')"

end Token

/-- A hash that does not tell the two zeros apart. -/
def numberHash (x : Float) : UInt64 := hash (if x == 0 then 0 else x.toBits)

instance : Hashable Token where
  hash
    | .operand value => mixHash 0 (numberHash value)
    | .operator op => mixHash 1 (instHashableChar.hash op.symbol)

end InfixCalculator
