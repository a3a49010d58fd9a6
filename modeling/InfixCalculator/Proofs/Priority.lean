import InfixCalculator.Operator

/-!
How tightly the binary operators bind: sums least, powers most. The priorities of the
stack and those of an arriving operator both order them in this way.
-/
namespace InfixCalculator

def BinaryOperator.priority : BinaryOperator → Nat
  | .add | .sub => 1
  | .mul | .div => 2
  | .pow => 3

theorem BinaryOperator.priority_pos (op : BinaryOperator) : 0 < op.priority := by
  cases op <;> decide
theorem BinaryOperator.priority_le_three (op : BinaryOperator) : op.priority ≤ 3 := by
  cases op <;> decide

theorem priority_eq_one_iff {op : BinaryOperator} :
    op.priority = 1 ↔ op ∈ [BinaryOperator.add, .sub] := by
  cases op <;> decide
theorem priority_eq_two_iff {op : BinaryOperator} :
    op.priority = 2 ↔ op ∈ [BinaryOperator.mul, .div] := by
  cases op <;> decide
theorem priority_eq_three_iff {op : BinaryOperator} : op.priority = 3 ↔ op = .pow := by
  cases op <;> decide

/-- A waiting operator counts as much as it binds. -/
@[simp] theorem Operator.stackPriority_binary (op : BinaryOperator) :
    (binary op).stackPriority = op.priority := by
  cases op <;> rfl

/-- So does an arriving one: between two binary operators both tables say the same. -/
@[simp] theorem Operator.incomingPriority_binary (op : BinaryOperator) :
    (binary op).incomingPriority = op.priority := by
  cases op <;> rfl

end InfixCalculator
