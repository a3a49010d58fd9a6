import InfixCalculator.Lexer
import InfixCalculator.Notation

/-!
Evaluation with two stacks, one of operands and one of operators that wait for
their right operand. At the bottom of a fresh operator stack lies an open
parenthesis for the expression as a whole; the end of the text closes it. What
is computed with is left to an interpretation, so that values and written forms
come from the same steps.
-/
namespace InfixCalculator

/-- The stacks, each with its top first. -/
structure Calculator (α : Type) where
  operands : List α
  operators : List Operator
  deriving DecidableEq, Repr

structure Reduction (α : Type) where
  operator : BinaryOperator
  left : α
  right : α
  result : α
  deriving DecidableEq, Repr

/-- The end of an action on a calculator: its answer or the fault that stopped
it, the stacks that it leaves, and the reductions made on the way. -/
structure Run (α β : Type) where
  answer : Except Fault β
  calculator : Calculator α
  reductions : List (Reduction α)

namespace Run

def ok (answer : β) (c : Calculator α) : Run α β := ⟨.ok answer, c, []⟩

def fail (fault : Fault) (c : Calculator α) : Run α β := ⟨.error fault, c, []⟩

/-- Goes on from the stacks that a run leaves, unless it stopped at a fault. -/
def andThen (run : Run α β) (next : β → Calculator α → Run α γ) : Run α γ :=
  match run.answer with
  | .ok answer =>
    let more := next answer run.calculator
    { more with reductions := run.reductions ++ more.reductions }
  | .error fault => ⟨.error fault, run.calculator, run.reductions⟩

@[simp] theorem andThen_ok (answer : β) (c : Calculator α)
    (next : β → Calculator α → Run α γ) : (ok answer c).andThen next = next answer c := rfl
@[simp] theorem andThen_fail (fault : Fault) (c : Calculator α)
    (next : β → Calculator α → Run α γ) : (fail fault c).andThen next = fail fault c := rfl

theorem andThen_assoc (run : Run α β) (f : β → Calculator α → Run α γ)
    (g : γ → Calculator α → Run α δ) :
    (run.andThen f).andThen g = run.andThen fun b c => (f b c).andThen g := by
  obtain ⟨answer, c, reductions⟩ := run
  cases answer with
  | error fault => rfl
  | ok b =>
    simp only [andThen]
    cases (f b c).answer <;> simp [List.append_assoc]

theorem andThen_of_ok {run : Run α β} {next : β → Calculator α → Run α γ} {b : β}
    (h : run.answer = .ok b) :
    (run.andThen next).answer = (next b run.calculator).answer ∧
      (run.andThen next).calculator = (next b run.calculator).calculator := by
  obtain ⟨answer, c, reductions⟩ := run
  obtain rfl : answer = .ok b := h
  exact ⟨rfl, rfl⟩

theorem andThen_of_error {run : Run α β} {next : β → Calculator α → Run α γ} {fault : Fault}
    (h : run.answer = .error fault) :
    (run.andThen next).answer = .error fault ∧
      (run.andThen next).calculator = run.calculator := by
  obtain ⟨answer, c, reductions⟩ := run
  obtain rfl : answer = .error fault := h
  exact ⟨rfl, rfl⟩

theorem andThen_eq_ok {run : Run α β} {next : β → Calculator α → Run α γ} {x : γ}
    (h : (run.andThen next).answer = .ok x) :
    ∃ b, run.answer = .ok b ∧ (next b run.calculator).answer = .ok x ∧
      (run.andThen next).calculator = (next b run.calculator).calculator := by
  obtain ⟨answer, c, reductions⟩ := run
  cases answer with
  | error fault => contradiction
  | ok b => exact ⟨b, rfl, h, rfl⟩

theorem andThen_eq_error {run : Run α β} {next : β → Calculator α → Run α γ} {fault : Fault}
    (h : (run.andThen next).answer = .error fault) :
    run.answer = .error fault ∨
      ∃ b, run.answer = .ok b ∧ (next b run.calculator).answer = .error fault := by
  obtain ⟨answer, c, reductions⟩ := run
  cases answer with
  | error found => exact .inl (congrArg Except.error (Except.error.inj h))
  | ok b => exact .inr ⟨b, rfl, h⟩

end Run

namespace Calculator

/-- Nothing but the open parenthesis of the whole expression. -/
def initial : Calculator α := ⟨[], [.leftParen]⟩

def reset (_ : Calculator α) : Calculator α := initial

def pushOperand (x : α) (c : Calculator α) : Calculator α :=
  { c with operands := x :: c.operands }

def pushOperator (op : Operator) (c : Calculator α) : Calculator α :=
  { c with operators := op :: c.operators }

@[simp] theorem reset_eq (c : Calculator α) : c.reset = initial := rfl
@[simp] theorem operands_initial : (initial : Calculator α).operands = [] := rfl
@[simp] theorem operators_initial : (initial : Calculator α).operators = [.leftParen] := rfl
@[simp] theorem operands_pushOperand (x : α) (c : Calculator α) :
    (c.pushOperand x).operands = x :: c.operands := rfl
@[simp] theorem operators_pushOperand (x : α) (c : Calculator α) :
    (c.pushOperand x).operators = c.operators := rfl
@[simp] theorem operands_pushOperator (op : Operator) (c : Calculator α) :
    (c.pushOperator op).operands = c.operands := rfl
@[simp] theorem operators_pushOperator (op : Operator) (c : Calculator α) :
    (c.pushOperator op).operators = op :: c.operators := rfl

/-- Applies an operator that has left its stack to the two topmost operands, the
right one on top. -/
def applyTop (I : Interpretation α) (op : Operator) (c : Calculator α) : Run α Unit :=
  match c.operands with
  | right :: left :: below =>
    match op with
    | .binary op =>
      let result := I.combine op left right
      ⟨.ok (), { c with operands := result :: below }, [⟨op, left, right, result⟩]⟩
    | paren => .fail (.parenthesisApplied paren) { c with operands := below }
  | _ => .fail (.missingOperand (some op.symbol.toString)) c

/-- Takes one operator off its stack and applies it. The answer tells whether it
was an open parenthesis, which is only taken off. -/
def reduceTop (I : Interpretation α) (c : Calculator α) : Run α Bool :=
  match c.operators with
  | [] => .fail .strayRightParen c
  | .leftParen :: rest => .ok true { c with operators := rest }
  | op :: rest => (applyTop I op { c with operators := rest }).andThen fun _ c => .ok false c

/-- Reduces the given operators up to the first open parenthesis. -/
def closeOperators (I : Interpretation α) (operands : List α) : List Operator → Run α Unit
  | [] => .fail .strayRightParen ⟨operands, []⟩
  | .leftParen :: rest => .ok () ⟨operands, rest⟩
  | op :: rest => (applyTop I op ⟨operands, rest⟩).andThen fun _ c =>
      closeOperators I c.operands rest

/-- Reduces until an open parenthesis has been taken off. -/
def closeGroup (I : Interpretation α) (c : Calculator α) : Run α Unit :=
  closeOperators I c.operands c.operators

theorem applyTop_operators (I : Interpretation α) (op : Operator) (c : Calculator α) :
    (applyTop I op c).calculator.operators = c.operators := by
  unfold applyTop
  split
  · cases op <;> rfl
  · rfl

/-- Closing a group is reducing once, and once more unless that closed it. -/
theorem closeGroup_eq_reduceTop (I : Interpretation α) (c : Calculator α) :
    closeGroup I c =
      (reduceTop I c).andThen fun closed c => if closed then .ok () c else closeGroup I c := by
  obtain ⟨operands, operators⟩ := c
  cases operators with
  | nil => rfl
  | cons op rest =>
    have kept := applyTop_operators I op ⟨operands, rest⟩
    cases op with
    | leftParen => rfl
    | binary | rightParen =>
      simp only [closeGroup, closeOperators, reduceTop, Run.andThen_assoc] at kept ⊢
      unfold Run.andThen
      split
      · simp [Run.ok, kept]
      · rfl

/-- An arriving operator is put on top of one of lower priority. One of equal
priority is applied first. One of higher priority closes the group, which is
opened again for the arriving operator. -/
def acceptOperator (I : Interpretation α) (op : Operator) (c : Calculator α) : Run α Unit :=
  match c.operators with
  | [] => .fail .strayRightParen c
  | top :: _ =>
    if op = .rightParen then closeGroup I c
    else if top.stackPriority < op.incomingPriority then .ok () (c.pushOperator op)
    else if op.incomingPriority < top.stackPriority then
      (closeGroup I c).andThen fun _ c => .ok () ((c.pushOperator .leftParen).pushOperator op)
    else (reduceTop I c).andThen fun _ c => .ok () (c.pushOperator op)

def accept (I : Interpretation α) (token : Token) (c : Calculator α) : Run α Unit :=
  match token with
  | .operand value => .ok () (c.pushOperand (I.literal value))
  | .operator op => acceptOperator I op c

def acceptAll (I : Interpretation α) : List Token → Calculator α → Run α Unit
  | [], c => .ok () c
  | token :: rest, c => (accept I token c).andThen fun _ c => acceptAll I rest c

@[simp] theorem acceptAll_nil (I : Interpretation α) (c : Calculator α) :
    acceptAll I [] c = .ok () c := rfl
@[simp] theorem acceptAll_cons (I : Interpretation α) (token : Token) (rest : List Token)
    (c : Calculator α) :
    acceptAll I (token :: rest) c = (accept I token c).andThen fun _ c => acceptAll I rest c := rfl

theorem acceptAll_append (I : Interpretation α) (first second : List Token)
    (c : Calculator α) :
    acceptAll I (first ++ second) c =
      (acceptAll I first c).andThen fun _ c => acceptAll I second c := by
  induction first generalizing c with
  | nil => rfl
  | cons token rest ih =>
    have step : (fun (_ : Unit) c => acceptAll I (rest ++ second) c) =
        fun _ c => (acceptAll I rest c).andThen fun _ c => acceptAll I second c := by
      funext _ c
      exact ih c
    rw [List.cons_append, acceptAll_cons, step, acceptAll_cons, Run.andThen_assoc]

/-- Accepts the tokens of a text. The fault of a token stops the lexer too, so a
fault of the text counts only if none came before it. -/
def acceptText (I : Interpretation α) (text : List Char) (c : Calculator α) : Run α Unit :=
  let s := scanText text
  (acceptAll I s.tokens c).andThen fun _ c => s.fault.elim (.ok () c) (.fail · c)

/-- Takes the value off the stacks of a closed expression and makes them fresh. -/
def takeValue (c : Calculator α) : Run α α :=
  match c.operators, c.operands with
  | _ :: _, _ => .fail .unclosedLeftParen c
  | [], [x] => .ok x ⟨[], [.leftParen]⟩
  | [], operands => .fail (.operandCount operands.length) c

/-- The value of a text, computed on top of what the stacks hold. -/
def evaluate (I : Interpretation α) (text : String) (c : Calculator α) : Run α α :=
  (acceptText I text.toList c).andThen fun _ c =>
    (closeGroup I c).andThen fun _ c => takeValue c

end Calculator

/-- The value of a text on a fresh calculator. -/
def evaluate (power : Float → Float → Float) (n : Notation) (text : String) :
    Except Fault n.Result :=
  (Calculator.initial.evaluate (n.interpretation power) text).answer

end InfixCalculator
