import InfixCalculator.Calculator
import InfixCalculator.Proofs.Priority
import Mathlib.Data.List.Chain

/-!
The order that the operator stack keeps through every action, whether it stops at a
fault or not. Faults of the actions are mistakes with a name, since no parenthesis
is ever applied. A stack without operators stays without them.
-/
namespace InfixCalculator

variable {α β γ : Type} (I : Interpretation α)

/-- What may lie directly on what: an open parenthesis on anything, and a binary
operator on what binds less tightly. -/
def LiesOn (upper lower : Operator) : Prop :=
  upper = .leftParen ∨ lower.stackPriority < upper.stackPriority

structure Orderly (operators : List Operator) : Prop where
  bottom : ∀ op ∈ operators.getLast?, op = .leftParen
  unclosed : .rightParen ∉ operators
  rising : operators.IsChain LiesOn

namespace Orderly

theorem nil : Orderly [] := ⟨nofun, nofun, .nil⟩

theorem tail {top : Operator} {below : List Operator} (h : Orderly (top :: below)) :
    Orderly below := by
  refine ⟨fun op hop => h.bottom op ?_, fun hmem => h.unclosed (by simp [hmem]), h.rising.tail⟩
  rw [List.getLast?_cons, hop]
  rfl

theorem leftParen {operators : List Operator} (h : Orderly operators) :
    Orderly (.leftParen :: operators) := by
  refine ⟨fun op hop => ?_, by simpa using h.unclosed, ?_⟩
  · cases operators with
    | nil => simpa using hop.symm
    | cons top below => exact h.bottom op (by simpa using hop)
  · cases operators with
    | nil => exact .singleton _
    | cons top below => exact .cons_cons (.inl rfl) h.rising

theorem binary {top : Operator} {below : List Operator} (h : Orderly (top :: below))
    {op : BinaryOperator} (looser : top.stackPriority < op.priority) :
    Orderly (.binary op :: top :: below) := by
  have hlies : LiesOn (.binary op) top := .inr (by rwa [Operator.stackPriority_binary])
  refine ⟨fun last hlast => h.bottom last (by simpa using hlast), ?_, .cons_cons hlies h.rising⟩
  simpa using h.unclosed

theorem group {operators : List Operator} (h : Orderly operators) (op : BinaryOperator) :
    Orderly (.binary op :: .leftParen :: operators) :=
  h.leftParen.binary (Int.natCast_pos.mpr op.priority_pos)

/-- An operator takes the place of another one that binds as tightly. -/
theorem replace {top : Operator} {below : List Operator} (h : Orderly (top :: below))
    {op : BinaryOperator} (alike : top.stackPriority = op.priority) :
    Orderly (.binary op :: below) := by
  have hpositive : (0 : Int) < op.priority := Int.natCast_pos.mpr op.priority_pos
  have hparen : top ≠ .leftParen := by
    rintro rfl
    rw [← alike] at hpositive
    exact absurd hpositive (by decide)
  cases below with
  | nil => exact absurd (h.bottom top rfl) hparen
  | cons next rest =>
    rcases (List.isChain_cons_cons.mp h.rising).1 with hopen | looser
    · exact absurd hopen hparen
    · exact h.tail.binary (alike ▸ looser)

end Orderly

/-- A run that keeps the operators in order and stops only at a named fault. -/
structure Run.Safe (run : Run α β) : Prop where
  operators : Orderly run.calculator.operators
  named : ∀ fault, run.answer = .error fault → fault.kind?.isSome

namespace Run

theorem Safe.ok {c : Calculator α} (h : Orderly c.operators) (b : β) :
    (Run.ok b c).Safe := ⟨h, nofun⟩

theorem Safe.fail {c : Calculator α} (h : Orderly c.operators) {fault : Fault}
    (named : fault.kind?.isSome) : (Run.fail fault c : Run α β).Safe :=
  ⟨h, fun _ hfault => Except.error.inj hfault ▸ named⟩

/-- Safe runs may be put one behind the other. -/
theorem Safe.andThen {run : Run α β} (h : run.Safe) {next : β → Calculator α → Run α γ}
    (hnext : ∀ b, run.answer = .ok b → (next b run.calculator).Safe) :
    (run.andThen next).Safe := by
  obtain ⟨answer, c, reductions⟩ := run
  cases answer with
  | error fault =>
    refine ⟨h.operators, fun found hfault => ?_⟩
    obtain rfl : fault = found := Except.error.inj hfault
    exact h.named fault rfl
  | ok b => exact ⟨(hnext b rfl).operators, (hnext b rfl).named⟩

end Run

namespace Calculator

theorem applyTop_safe (op : BinaryOperator) {c : Calculator α} (h : Orderly c.operators) :
    (applyTop I (.binary op) c).Safe := by
  constructor
  · rw [applyTop_operators]
    exact h
  · intro fault hfault
    unfold applyTop at hfault
    split at hfault
    · contradiction
    · rw [← Except.error.inj hfault]
      rfl

theorem reduceTop_operators (c : Calculator α) :
    (reduceTop I c).calculator.operators = c.operators.tail := by
  obtain ⟨operands, operators⟩ := c
  cases operators with
  | nil => rfl
  | cons op rest =>
    have kept := applyTop_operators I op ⟨operands, rest⟩
    cases op with
    | leftParen => rfl
    | binary | rightParen =>
      simp only [reduceTop, Run.andThen]
      split
      · exact kept
      · exact kept

theorem reduceTop_safe {c : Calculator α} (h : Orderly c.operators) :
    (reduceTop I c).Safe := by
  obtain ⟨operands, operators⟩ := c
  match operators with
  | [] => exact .fail .nil rfl
  | .leftParen :: rest => exact .ok h.tail _
  | .rightParen :: rest => exact absurd (by simp) h.unclosed
  | .binary op :: rest =>
    have happly := applyTop_safe I op (c := ⟨operands, rest⟩) h.tail
    exact happly.andThen fun _ _ => .ok happly.operators _

theorem closeOperators_safe (operands : List α) {operators : List Operator}
    (h : Orderly operators) : (closeOperators I operands operators).Safe := by
  induction operators generalizing operands with
  | nil => exact .fail .nil rfl
  | cons op rest ih =>
    cases op with
    | leftParen => exact .ok h.tail _
    | rightParen => exact absurd (by simp) h.unclosed
    | binary op =>
      exact (applyTop_safe I op (c := ⟨operands, rest⟩) h.tail).andThen fun _ _ => ih _ h.tail

theorem closeGroup_safe {c : Calculator α} (h : Orderly c.operators) :
    (closeGroup I c).Safe := closeOperators_safe I c.operands h

theorem acceptOperator_leftParen {c : Calculator α} (h : c.operators ≠ []) :
    acceptOperator I .leftParen c = .ok () (c.pushOperator .leftParen) := by
  obtain ⟨operands, operators⟩ := c
  match operators with
  | top :: below =>
    have htop : top.stackPriority < Operator.leftParen.incomingPriority := by
      cases top with
      | binary op => cases op <;> decide
      | leftParen => decide
      | rightParen => decide
    simp [acceptOperator, htop]

theorem acceptOperator_rightParen (c : Calculator α) :
    acceptOperator I .rightParen c = closeGroup I c := by
  obtain ⟨operands, operators⟩ := c
  cases operators <;> rfl

/-- Whichever operator arrives, the operators keep their order. -/
theorem acceptOperator_safe (op : Operator) {c : Calculator α} (h : Orderly c.operators) :
    (acceptOperator I op c).Safe := by
  obtain ⟨operands, operators⟩ := c
  cases operators with
  | nil => exact .fail .nil rfl
  | cons top below =>
    have hclose := closeGroup_safe I (c := ⟨operands, top :: below⟩) h
    cases op with
    | rightParen => exact hclose
    | leftParen =>
      rw [acceptOperator_leftParen I (by simp)]
      exact .ok h.leftParen _
    | binary op =>
      rcases Int.lt_trichotomy top.stackPriority op.priority with looser | alike | tighter
      · simpa [acceptOperator, looser] using Run.Safe.ok (h.binary looser) ()
      · have hreduce := reduceTop_safe I (c := ⟨operands, top :: below⟩) h
        have hoperators := reduceTop_operators I ⟨operands, top :: below⟩
        simp only [acceptOperator, reduceCtorEq, if_false, Operator.incomingPriority_binary, alike,
          Int.lt_irrefl]
        refine hreduce.andThen fun _ _ => .ok ?_ _
        rw [operators_pushOperator, hoperators]
        exact h.replace alike
      · simp only [acceptOperator, reduceCtorEq, if_false, Operator.incomingPriority_binary,
          Int.lt_asymm tighter, tighter, if_true]
        exact hclose.andThen fun _ _ => .ok (hclose.operators.group op) _

theorem accept_safe (token : Token) {c : Calculator α} (h : Orderly c.operators) :
    (accept I token c).Safe := by
  cases token with
  | operand x => exact .ok (c := c.pushOperand (I.literal x)) h _
  | operator op => exact acceptOperator_safe I op h

/-- Tokens keep the operators in order, also those before a fault. -/
theorem acceptAll_safe (tokens : List Token) {c : Calculator α} (h : Orderly c.operators) :
    (acceptAll I tokens c).Safe := by
  induction tokens generalizing c with
  | nil => exact .ok h _
  | cons token rest ih =>
    have hfirst := accept_safe I token h
    exact hfirst.andThen fun _ _ => ih hfirst.operators

/-! Without operators -/

theorem reduceTop_of_nil {c : Calculator α} (h : c.operators = []) :
    reduceTop I c = .fail .strayRightParen c := by
  rw [reduceTop, h]

theorem closeGroup_of_nil {c : Calculator α} (h : c.operators = []) :
    closeGroup I c = .fail .strayRightParen c := by
  obtain ⟨operands, operators⟩ := c
  obtain rfl : operators = [] := h
  rfl

/-- Without a parenthesis below, no operator is accepted, be it an opening one. -/
theorem acceptOperator_of_nil (op : Operator) {c : Calculator α} (h : c.operators = []) :
    acceptOperator I op c = .fail .strayRightParen c := by
  rw [acceptOperator, h]

/-- Literals lie on top of the operands, and there are no operators. -/
structure Heaped (c last : Calculator α) : Prop where
  operators : last.operators = []
  operands : ∃ values : List Float, last.operands = values.map I.literal ++ c.operands

theorem Heaped.refl {c : Calculator α} (h : c.operators = []) : Heaped I c c := ⟨h, [], rfl⟩

theorem Heaped.trans {first second third : Calculator α} (h : Heaped I first second)
    (h' : Heaped I second third) : Heaped I first third := by
  obtain ⟨below, hbelow⟩ := h.operands
  obtain ⟨above, habove⟩ := h'.operands
  refine ⟨h'.operators, above ++ below, ?_⟩
  rw [habove, hbelow, List.map_append, List.append_assoc]

/-- Without operators, a literal is put on the heap and an operator changes nothing. -/
theorem accept_heaped (token : Token) {c : Calculator α} (h : c.operators = []) :
    Heaped I c (accept I token c).calculator := by
  cases token with
  | operand x => exact ⟨h, [x], rfl⟩
  | operator op =>
    rw [accept, acceptOperator_of_nil I op h]
    exact .refl I h

/-- Once the operators are used up, they stay so. -/
theorem acceptAll_heaped (tokens : List Token) {c : Calculator α} (h : c.operators = []) :
    Heaped I c (acceptAll I tokens c).calculator := by
  induction tokens generalizing c with
  | nil => exact .refl I h
  | cons token rest ih =>
    have hfirst := accept_heaped I token h
    rw [acceptAll_cons]
    cases htoken : (accept I token c).answer with
    | error fault => rwa [(Run.andThen_of_error htoken).2]
    | ok _ =>
      rw [(Run.andThen_of_ok htoken).2]
      exact hfirst.trans I (ih hfirst.operators)

end Calculator

end InfixCalculator
