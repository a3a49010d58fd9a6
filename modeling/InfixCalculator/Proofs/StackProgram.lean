import InfixCalculator.Calculator

/-!
Programs for a machine with one stack: a literal is pushed, an operator is applied
to the two topmost operands. The program of an expression is its postorder, and a
program that leaves exactly one operand is the program of one expression.
-/
namespace InfixCalculator

inductive Instruction where
  | push (x : Float)
  | apply (op : BinaryOperator)
  deriving DecidableEq, Repr

abbrev Program := List Instruction

/-- The end of a program: the operator that lacked operands if one did, the
stack that is left, and the reductions made on the way. -/
structure Execution (α : Type) where
  lacking : Option BinaryOperator
  operands : List α
  reductions : List (Reduction α)

namespace Execution

/-- Goes on from the operands that are left, unless an operator lacked some. -/
def andThen (e : Execution α) (next : List α → Execution α) : Execution α :=
  match e.lacking with
  | none =>
    let more := next e.operands
    { more with reductions := e.reductions ++ more.reductions }
  | some _ => e

theorem andThen_done (operands : List α) (reductions : List (Reduction α))
    (next : List α → Execution α) :
    (⟨none, operands, reductions⟩ : Execution α).andThen next =
      { next operands with reductions := reductions ++ (next operands).reductions } := rfl

/-- What the program is worth: the single operand that it leaves. -/
def answer (e : Execution α) : Except Fault α :=
  match e.lacking, e.operands with
  | some op, _ => .error (.missingOperand (some op.symbol.toString))
  | none, [x] => .ok x
  | none, operands => .error (.operandCount operands.length)

theorem answer_eq_ok_iff (e : Execution α) (x : α) :
    e.answer = .ok x ↔ e.lacking = none ∧ e.operands = [x] := by
  obtain ⟨lacking, operands, reductions⟩ := e
  cases lacking with
  | some op => simp [answer]
  | none =>
    match operands with
    | [] => simp [answer]
    | [y] => simp [answer]
    | y :: z :: more => simp [answer]

end Execution

def execute (I : Interpretation α) : Program → List α → Execution α
  | [], operands => ⟨none, operands, []⟩
  | .push x :: rest, operands => execute I rest (I.literal x :: operands)
  | .apply op :: rest, right :: left :: below =>
    let result := I.combine op left right
    let more := execute I rest (result :: below)
    { more with reductions := ⟨op, left, right, result⟩ :: more.reductions }
  | .apply op :: _, operands => ⟨some op, operands, []⟩

@[simp] theorem execute_nil (I : Interpretation α) (operands : List α) :
    execute I [] operands = ⟨none, operands, []⟩ := by
  unfold execute
  rfl

@[simp] theorem execute_push (I : Interpretation α) (x : Float) (rest : Program)
    (operands : List α) :
    execute I (.push x :: rest) operands = execute I rest (I.literal x :: operands) := by
  rw [execute]

theorem execute_append (I : Interpretation α) (first second : Program) (operands : List α) :
    execute I (first ++ second) operands =
      (execute I first operands).andThen (execute I second) := by
  induction first generalizing operands with
  | nil => simp [Execution.andThen]
  | cons instruction rest ih =>
    cases instruction with
    | push x => simpa using ih (I.literal x :: operands)
    | apply op =>
      match operands with
      | [] => rfl
      | [x] => rfl
      | right :: left :: below =>
        simp only [List.cons_append, execute, ih]
        generalize execute I rest (I.combine op left right :: below) = e
        obtain ⟨lacking, left_over, reductions⟩ := e
        cases lacking <;> rfl

/-- A literal pushes itself; an operator follows the programs of its two sides. -/
def Interpretation.programs : Interpretation Program where
  literal x := [.push x]
  combine op left right := left ++ right ++ [.apply op]

@[simp] theorem Interpretation.literal_programs (x : Float) :
    Interpretation.programs.literal x = [.push x] := rfl
@[simp] theorem Interpretation.combine_programs (op : BinaryOperator) (left right : Program) :
    Interpretation.programs.combine op left right = left ++ right ++ [.apply op] := rfl

namespace Expression

def program (e : Expression) : Program := e.fold .programs

@[simp] theorem program_literal (x : Float) : (literal x).program = [.push x] := rfl
@[simp] theorem program_node (op : BinaryOperator) (left right : Expression) :
    (node op left right).program = left.program ++ right.program ++ [.apply op] := rfl

def reductions (I : Interpretation α) : Expression → List (Reduction α)
  | literal _ => []
  | node op left right =>
    left.reductions I ++ right.reductions I ++
      [⟨op, left.fold I, right.fold I, I.combine op (left.fold I) (right.fold I)⟩]

/-- The program of an expression pushes its meaning, whatever lies below. -/
theorem execute_program (I : Interpretation α) (e : Expression) (operands : List α) :
    execute I e.program operands = ⟨none, e.fold I :: operands, e.reductions I⟩ := by
  induction e generalizing operands with
  | literal x => simp [reductions]
  | node op left right left_ih right_ih =>
    rw [program_node, execute_append, execute_append, left_ih, Execution.andThen_done,
      right_ih, Execution.andThen_done]
    simp [execute, reductions]

end Expression

def stackProgram : List Expression → Program
  | [] => []
  | top :: below => stackProgram below ++ top.program

/-- A program that runs through only ever builds up a stack of expressions. -/
theorem execute_expressions (I : Interpretation α) (p : Program) (stack : List Expression)
    (h : (execute I p (stack.map (·.fold I))).lacking = none) :
    ∃ built : List Expression,
      (execute I p (stack.map (·.fold I))).operands = built.map (·.fold I) ∧
      stackProgram built = stackProgram stack ++ p := by
  induction p generalizing stack with
  | nil => exact ⟨stack, by simp⟩
  | cons instruction rest ih =>
    cases instruction with
    | push x =>
      obtain ⟨built, left, spelled⟩ := ih (.literal x :: stack) (by simpa using h)
      refine ⟨built, by simpa using left, ?_⟩
      simpa [stackProgram] using spelled
    | apply op =>
      match stack with
      | [] => simp [execute] at h
      | [e] => simp [execute] at h
      | right :: left :: below =>
        obtain ⟨built, remains, spelled⟩ := ih (.node op left right :: below)
          (by simpa [execute] using h)
        refine ⟨built, by simpa [execute] using remains, ?_⟩
        simpa [stackProgram] using spelled

/-- A program with an answer is the program of an expression with that meaning. -/
theorem execute_answer_iff (I : Interpretation α) (p : Program) (x : α) :
    (execute I p []).answer = .ok x ↔ ∃ e : Expression, p = e.program ∧ x = e.fold I := by
  rw [Execution.answer_eq_ok_iff]
  constructor
  · rintro ⟨through, left⟩
    obtain ⟨built, remains, spelled⟩ := execute_expressions I p [] through
    rw [List.map_nil, left] at remains
    match built with
    | [] => simp at remains
    | [e] => exact ⟨e, by simpa [stackProgram] using spelled.symm, by simpa using remains⟩
    | e :: e' :: more => simp at remains
  · rintro ⟨e, rfl, rfl⟩
    simp [Expression.execute_program]

end InfixCalculator
