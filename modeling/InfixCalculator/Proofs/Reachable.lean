import InfixCalculator.Platform
import InfixCalculator.Proofs.Balance
import InfixCalculator.Proofs.Operation

/-!
The operator stack in every state that a calculator can get into, by whatever is
asked of it and whether it faulted before or not. What one operation keeps, a
sequence of operations keeps.
-/
namespace InfixCalculator

variable {α : Type} (I : Interpretation α)

namespace Orderly

/-- Within a group each operator is tighter than those below it. -/
theorem group_pairwise {operators : List Operator} (h : Orderly operators)
    {group : List BinaryOperator} (hgroup : group.map .binary <:+: operators) :
    group.Pairwise fun upper lower => lower.priority < upper.priority := by
  have hchain : (group.map Operator.binary).IsChain LiesOn := h.rising.infix hgroup
  rw [List.isChain_map] at hchain
  have hlooser : group.IsChain fun upper lower => lower.priority < upper.priority := by
    refine hchain.imp fun upper lower hlies => ?_
    rcases hlies with hopen | hlooser
    · contradiction
    · rw [Operator.stackPriority_binary, Operator.stackPriority_binary] at hlooser
      exact Int.ofNat_lt.mp hlooser
  exact (List.isChain_iff_pairwise).mp hlooser

/-- There are three priorities, so that no more than three operators can wait in one
group. -/
theorem group_length {top : BinaryOperator} {below : List BinaryOperator}
    (h : (top :: below).Pairwise fun upper lower => lower.priority < upper.priority) :
    (top :: below).length ≤ top.priority := by
  induction below generalizing top with
  | nil => exact top.priority_pos
  | cons next rest ih =>
    obtain ⟨hall, hrest⟩ := List.pairwise_cons.mp h
    have hnext : next.priority < top.priority := hall next (by simp)
    have hlength := ih hrest
    simp only [List.length_cons] at hlength ⊢
    omega

end Orderly

namespace Calculator

theorem takeValue_orderly {c : Calculator α} (h : Orderly c.operators) :
    Orderly (takeValue c).calculator.operators := by
  obtain ⟨operands, operators⟩ := c
  match operators, operands with
  | op :: rest, _ => exact h
  | [], [] => exact .nil
  | [], [x] => exact Orderly.nil.leftParen
  | [], x :: y :: more => exact .nil

/-- An evaluation leaves the operators in order, also if it faults. -/
theorem evaluate_orderly (text : String) {c : Calculator α} (h : Orderly c.operators) :
    Orderly (c.evaluate I text).calculator.operators := by
  have hending := evaluate_ending I text c
  have haccept (tokens : List Token) := (acceptAll_safe I tokens h).operators
  generalize (c.evaluate I text).answer = answer at hending
  generalize (c.evaluate I text).calculator = last at hending ⊢
  cases hending with
  | token => exact (accept_safe I _ (haccept _)).operators
  | text => exact haccept _
  | close => exact (closeGroup_safe I (haccept _)).operators
  | value _ _ _ hlast =>
    rw [hlast]
    exact takeValue_orderly (closeGroup_safe I (haccept _)).operators

end Calculator

theorem Operation.perform_orderly (op : Operation) {c : Calculator α}
    (h : Orderly c.operators) : Orderly (op.perform I c).calculator.operators := by
  cases op with
  | evaluate text => exact Calculator.evaluate_orderly I text h
  | accept token => exact (Calculator.accept_safe I token h).operators
  | acceptOperator op => exact (Calculator.acceptOperator_safe I op h).operators
  | reduceTop => exact (Calculator.reduceTop_safe I h).operators
  | closeGroup => exact (Calculator.closeGroup_safe I h).operators
  | reset => exact Orderly.nil.leftParen

/-- From an orderly calculator only orderly ones can be reached. -/
theorem Calculator.after_orderly (ops : List Operation) {c : Calculator α}
    (h : Orderly c.operators) : Orderly (c.after I ops).operators := by
  induction ops generalizing c with
  | nil => exact h
  | cons op rest ih => exact ih (op.perform_orderly I h)

theorem Run.reply_eq_error {β : Type} {run : Run α β} {wrap : β → Reply α} {fault : Fault}
    (h : (run.reply wrap).answer = .error fault) : run.answer = .error fault := by
  obtain ⟨answer, c, reductions⟩ := run
  cases answer with
  | error found => exact congrArg Except.error (Except.error.inj h)
  | ok b => contradiction

/-- From an orderly stack, an operation stops at a named fault, or at the count of the
operands that an evaluation leaves. -/
theorem Operation.perform_fault (op : Operation) {c : Calculator α} (h : Orderly c.operators)
    {fault : Fault} (hfault : (op.perform I c).answer = .error fault) :
    fault.kind?.isSome ∨ ∃ found ≠ 1, fault = .operandCount found := by
  cases op with
  | evaluate text => exact Calculator.evaluate_fault I text h (Run.reply_eq_error hfault)
  | accept token =>
    exact .inl ((Calculator.accept_safe I token h).named _ (Run.reply_eq_error hfault))
  | acceptOperator op =>
    exact .inl ((Calculator.acceptOperator_safe I op h).named _ (Run.reply_eq_error hfault))
  | reduceTop =>
    exact .inl ((Calculator.reduceTop_safe I h).named _ (Run.reply_eq_error hfault))
  | closeGroup =>
    exact .inl ((Calculator.closeGroup_safe I h).named _ (Run.reply_eq_error hfault))
  | reset => contradiction

/-- Whatever has been asked of a new calculator, faults and all: its operator stack is
empty or has an open parenthesis at the bottom, and no closing one anywhere; operators
that lie on each other without a parenthesis between them bind more and more tightly, so
that there are at most three of them. No parenthesis is ever applied, a stray closing
one is reported on an empty stack only, and an evaluation ends in a value, a named fault
or the count of its operands. -/
theorem operators_orderly_always (power : Float → Float → Float) (n : Notation)
    (ops : List Operation) :
    let c := Calculator.initial.after (n.interpretation power) ops
    (c.operators = [] ∨ c.operators.getLast? = some .leftParen) ∧
    .rightParen ∉ c.operators ∧
    (∀ group : List BinaryOperator, group.map .binary <:+: c.operators →
      (group.Pairwise fun upper lower => lower.priority < upper.priority) ∧ group.length ≤ 3) ∧
    (∀ (next : Operation) (paren : Operator),
      (next.perform (n.interpretation power) c).answer ≠ .error (.parenthesisApplied paren)) ∧
    (∀ op : Operator,
      (c.acceptOperator (n.interpretation power) op).answer = .error .strayRightParen →
        c.operators = []) ∧
    ∀ (text : String) (fault : Fault),
      (c.evaluate (n.interpretation power) text).answer = .error fault →
        fault.kind?.isSome ∨ ∃ found ≠ 1, fault = .operandCount found := by
  intro c
  have h : Orderly c.operators :=
    Calculator.after_orderly (n.interpretation power) ops Orderly.nil.leftParen
  refine ⟨?_, h.unclosed, ?_, ?_, fun op hstray => ?_,
    fun text fault => Calculator.evaluate_fault (n.interpretation power) text h⟩
  · by_cases hnil : c.operators = []
    · exact .inl hnil
    · have hlast := List.getLast?_eq_some_getLast hnil
      rw [h.bottom _ hlast] at hlast
      exact .inr hlast
  · intro group hgroup
    have hpairwise := h.group_pairwise hgroup
    refine ⟨hpairwise, ?_⟩
    cases group with
    | nil => simp
    | cons top below =>
      exact Nat.le_trans (Orderly.group_length hpairwise) top.priority_le_three
  · intro next paren hfault
    rcases next.perform_fault (n.interpretation power) h hfault with hnamed | ⟨found, -, hcount⟩
    · contradiction
    · contradiction
  · exact (Calculator.acceptOperator_stuck (n.interpretation power) h hstray).operators_of_stray

/-- Three operators wait after a sum whose left side lacked an operand, and the third
closing parenthesis is a stray one. -/
theorem operators_orderly_after_faults :
    let binary (op : BinaryOperator) : Operation := .acceptOperator (.binary op)
    let waiting : Calculator String := Calculator.initial.after
      (Notation.operatorFirst.interpretation Platform.power)
      [binary .mul, binary .add, binary .add, binary .mul, binary .pow]
    let emptied : Calculator String := Calculator.initial.after
      (Notation.operatorFirst.interpretation Platform.power)
      [.closeGroup, .accept (.operator .rightParen)]
    let group : List BinaryOperator := [.pow, .mul, .add]
    let lacking : Fault := .missingOperand (some "^")
    (group.map .binary <:+: waiting.operators ∧ group.length ≤ 3) ∧
    ((waiting.evaluate .operatorFirst "").answer = .error lacking ∧
      (lacking.kind?.isSome ∨ ∃ found ≠ 1, lacking = .operandCount found)) ∧
    ((emptied.acceptOperator .operatorFirst .rightParen).answer = .error .strayRightParen ∧
      emptied.operators = []) := by
  intro binary waiting emptied group lacking
  have hgroup : group.map .binary <:+: waiting.operators := ⟨[], [.leftParen], rfl⟩
  have hlacking : (waiting.evaluate .operatorFirst "").answer = .error lacking := by
    rw [Calculator.evaluate, Calculator.acceptText, scanText_eq_scanPieces]
    rfl
  have hstray : (emptied.acceptOperator .operatorFirst .rightParen).answer =
      .error .strayRightParen := rfl
  obtain ⟨-, -, hgroups, -, -, hfaults⟩ := operators_orderly_always Platform.power .operatorFirst
    [binary .mul, binary .add, binary .add, binary .mul, binary .pow]
  obtain ⟨-, -, -, -, hempty, -⟩ := operators_orderly_always Platform.power .operatorFirst
    [.closeGroup, .accept (.operator .rightParen)]
  exact ⟨⟨hgroup, (hgroups group hgroup).2⟩, ⟨hlacking, hfaults "" lacking hlacking⟩,
    hstray, hempty .rightParen hstray⟩

end InfixCalculator
