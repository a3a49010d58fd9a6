import InfixCalculator.Notation

/-!
What an expression is worth in each notation: its value as a double, computed from the
leaves up, or the tree written out with every operation in parentheses. A calculator
that combines results one operator at a time comes to the same.
-/
namespace InfixCalculator

namespace Expression

/-- The value in the arithmetic of doubles, with the given power. -/
def value (power : Float → Float → Float) : Expression → Float
  | literal x => x
  | node .add left right => left.value power + right.value power
  | node .sub left right => left.value power - right.value power
  | node .mul left right => left.value power * right.value power
  | node .div left right => left.value power / right.value power
  | node .pow left right => power (left.value power) (right.value power)

def operatorFirst : Expression → String
  | literal x => literalText x
  | node op left right =>
    "(" ++ op.symbol.toString ++ " " ++ left.operatorFirst ++ " " ++ right.operatorFirst ++ ")"

def operatorLast : Expression → String
  | literal x => literalText x
  | node op left right =>
    "(" ++ left.operatorLast ++ " " ++ right.operatorLast ++ " " ++ op.symbol.toString ++ ")"

def meaning (power : Float → Float → Float) (e : Expression) : (n : Notation) → n.Result
  | .value => e.value power
  | .operatorFirst => e.operatorFirst
  | .operatorLast => e.operatorLast

/-- The arithmetic of the calculator gives a tree its value. -/
theorem fold_arithmetic (power : Float → Float → Float) (e : Expression) :
    e.fold (.arithmetic power) = e.value power := by
  induction e with
  | literal x => rfl
  | node op left right left_ih right_ih =>
    rw [fold_node, left_ih, right_ih]
    cases op <;> rfl

theorem fold_operatorFirst (e : Expression) : e.fold .operatorFirst = e.operatorFirst := by
  induction e with
  | literal x => rfl
  | node op left right left_ih right_ih =>
    rw [fold_node, left_ih, right_ih]
    rfl

theorem fold_operatorLast (e : Expression) : e.fold .operatorLast = e.operatorLast := by
  induction e with
  | literal x => rfl
  | node op left right left_ih right_ih =>
    rw [fold_node, left_ih, right_ih]
    rfl

/-- Combining the results of the two sides at every node gives the meaning of a tree. -/
theorem fold_interpretation (power : Float → Float → Float) (e : Expression) (n : Notation) :
    e.fold (n.interpretation power) = e.meaning power n := by
  cases n with
  | value => exact e.fold_arithmetic power
  | operatorFirst => exact e.fold_operatorFirst
  | operatorLast => exact e.fold_operatorLast

end Expression

end InfixCalculator
