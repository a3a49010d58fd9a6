import InfixCalculator.Operator
import InfixCalculator.Text.Quoted

/-!
What can go wrong with an expression. Four kinds of fault are mistakes that the
user is told about by name; the other two say that the text has no value at all
although its operators were satisfied.
-/
namespace InfixCalculator

inductive FaultKind where
  | unknownSymbol
  | strayRightParen
  | unclosedLeftParen
  | missingOperand
  deriving DecidableEq, Repr

def FaultKind.name : FaultKind → String
  | .unknownSymbol => "unknown_symbol"
  | .strayRightParen => "too_many_right_paren"
  | .unclosedLeftParen => "too_many_left_paren"
  | .missingOperand => "insufficient_operands"

inductive Fault where
  | unknownSymbol (symbol : String)
  | strayRightParen
  | unclosedLeftParen
  /-- The operator, if it is known which one lacked operands. -/
  | missingOperand (operator : Option String)
  /-- A parenthesis in the place of an operator between two operands. -/
  | parenthesisApplied (parenthesis : Operator)
  /-- More or fewer operands than the one that would be the value. -/
  | operandCount (found : Nat)
  deriving DecidableEq, Repr

namespace Fault

/-- The named kind of a mistake in the text; none for a malformed expression. -/
def kind? : Fault → Option FaultKind
  | .unknownSymbol _ => some .unknownSymbol
  | .strayRightParen => some .strayRightParen
  | .unclosedLeftParen => some .unclosedLeftParen
  | .missingOperand _ => some .missingOperand
  | .parenthesisApplied _ | .operandCount _ => none

/-- The piece of text that the fault is about. -/
def detail? : Fault → Option String
  | .unknownSymbol symbol => some symbol
  | .missingOperand operator => operator
  | _ => none

def message : Fault → String
  | .unknownSymbol symbol => "Unknown symbol: '" ++ symbol ++ "'"
  | .strayRightParen => "Too many right parentheses"
  | .unclosedLeftParen => "Too many left parentheses"
  | .missingOperand none => "Insufficient operands"
  | .missingOperand (some operator) => "Insufficient operands for '" ++ operator ++ "'"
  | .parenthesisApplied parenthesis =>
    "Parenthesis '" ++ parenthesis.symbol.toString ++ "' cannot be applied as a binary operator"
  | .operandCount found =>
    "Expected exactly one operand after evaluation, found " ++ toString found

end Fault

def notAnOperatorMessage (text : String) : String :=
  quoted text ++ " is not a valid Operator"

end InfixCalculator
