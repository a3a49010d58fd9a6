import InfixCalculator.Operator

/-!
Expressions as binary trees, and what can be made of them: an interpretation
says what a literal stands for and what an operator makes of two results. The
trees are the interpretation that forgets nothing.
-/
namespace InfixCalculator

inductive Expression where
  | literal (value : Float)
  | node (op : BinaryOperator) (left right : Expression)
  deriving DecidableEq, Repr

structure Interpretation (α : Type) where
  literal : Float → α
  combine : BinaryOperator → α → α → α

def Interpretation.trees : Interpretation Expression where
  literal := .literal
  combine := .node

/-- The meaning of a tree, from the leaves up. -/
def Expression.fold (I : Interpretation α) : Expression → α
  | .literal x => I.literal x
  | .node op left right => I.combine op (left.fold I) (right.fold I)

@[simp] theorem Expression.fold_literal (I : Interpretation α) (x : Float) :
    (literal x).fold I = I.literal x := rfl
@[simp] theorem Expression.fold_node (I : Interpretation α) (op : BinaryOperator)
    (left right : Expression) :
    (node op left right).fold I = I.combine op (left.fold I) (right.fold I) := rfl

@[simp] theorem Expression.fold_trees (e : Expression) : e.fold .trees = e := by
  induction e with
  | literal => rfl
  | node op left right left_ih right_ih =>
    simp [left_ih, right_ih]
    rfl

end InfixCalculator
