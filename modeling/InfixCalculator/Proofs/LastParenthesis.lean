import InfixCalculator.Platform
import InfixCalculator.Proofs.Arrival
import InfixCalculator.Proofs.Operation
import InfixCalculator.Proofs.Reading

/-!
The open parenthesis of the whole expression, once it has been taken off. A stray closing
parenthesis and a wrong count of operands are faults of a calculator without operators, and
nothing but a reset gets it out of that state: all it still does is to put literals on top
of its operands.
-/
namespace InfixCalculator

variable {α β γ : Type} (I : Interpretation α)

/-- The faults that are met when all operators have been taken off. -/
def Fault.AtBottom (fault : Fault) : Prop :=
  fault = .strayRightParen ∨ ∃ found, fault = .operandCount found

/-- A run that leaves no operators if it stops at one of these faults. -/
def Run.Emptied (run : Run α β) : Prop :=
  ∀ fault, run.answer = .error fault → fault.AtBottom → run.calculator.operators = []

namespace Run.Emptied

theorem ok (b : β) (c : Calculator α) : (Run.ok b c).Emptied := nofun

theorem fail {fault : Fault} (h : ¬fault.AtBottom) (c : Calculator α) :
    (Run.fail fault c : Run α β).Emptied := by
  intro found hfound bottom
  obtain rfl : fault = found := Except.error.inj hfound
  exact absurd bottom h

theorem andThen {run : Run α β} (h : run.Emptied) {next : β → Calculator α → Run α γ}
    (hnext : ∀ b, (next b run.calculator).Emptied) : (run.andThen next).Emptied := by
  intro fault hfault bottom
  cases hrun : run.answer with
  | error found =>
    rw [(Run.andThen_of_error hrun).1] at hfault
    rw [(Run.andThen_of_error hrun).2]
    obtain rfl : found = fault := Except.error.inj hfault
    exact h found hrun bottom
  | ok b =>
    rw [(Run.andThen_of_ok hrun).1] at hfault
    rw [(Run.andThen_of_ok hrun).2]
    exact hnext b fault hfault bottom

end Run.Emptied

theorem unknownSymbol_not_atBottom (symbol : String) :
    ¬(Fault.unknownSymbol symbol).AtBottom := by
  simp [Fault.AtBottom]

namespace Calculator

theorem applyTop_emptied (op : Operator) (c : Calculator α) : (applyTop I op c).Emptied := by
  unfold applyTop
  split
  · cases op with
    | binary op => exact nofun
    | leftParen | rightParen => exact .fail (by simp [Fault.AtBottom]) _
  · exact .fail (by simp [Fault.AtBottom]) _

theorem reduceTop_emptied (c : Calculator α) : (reduceTop I c).Emptied := by
  obtain ⟨operands, operators⟩ := c
  cases operators with
  | nil => exact fun _ _ _ => rfl
  | cons op rest =>
    cases op with
    | leftParen => exact .ok _ _
    | binary | rightParen => exact (applyTop_emptied I _ _).andThen fun _ => .ok _ _

/-- A group is closed up to the bottom before a parenthesis is missed. -/
theorem closeOperators_emptied (operands : List α) (operators : List Operator) :
    (closeOperators I operands operators).Emptied := by
  induction operators generalizing operands with
  | nil => exact fun _ _ _ => rfl
  | cons op rest ih =>
    cases op with
    | leftParen => exact .ok _ _
    | binary | rightParen => exact (applyTop_emptied I _ _).andThen fun _ => ih _

theorem closeGroup_emptied (c : Calculator α) : (closeGroup I c).Emptied :=
  closeOperators_emptied I c.operands c.operators

theorem acceptOperator_emptied (op : Operator) (c : Calculator α) :
    (acceptOperator I op c).Emptied := by
  have harrival := acceptOperator_arrival I op c
  generalize acceptOperator I op c = run at harrival ⊢
  cases harrival with
  | stray hnil => exact fun _ _ _ => hnil
  | close => exact closeGroup_emptied I c
  | push => exact .ok _ _
  | reopen => exact (closeGroup_emptied I c).andThen fun _ => .ok _ _
  | replace => exact (reduceTop_emptied I c).andThen fun _ => .ok _ _

theorem accept_emptied (token : Token) (c : Calculator α) : (accept I token c).Emptied := by
  cases token with
  | operand x => exact .ok _ _
  | operator op => exact acceptOperator_emptied I op c

theorem acceptAll_emptied (tokens : List Token) (c : Calculator α) :
    (acceptAll I tokens c).Emptied := by
  induction tokens generalizing c with
  | nil => exact .ok _ _
  | cons token rest ih => exact (accept_emptied I token c).andThen fun _ => ih _

theorem acceptText_emptied (text : List Char) (c : Calculator α) :
    (acceptText I text c).Emptied := by
  unfold acceptText
  refine (acceptAll_emptied I _ c).andThen fun _ => ?_
  cases hfault : (scanText text).fault with
  | none => exact .ok _ _
  | some fault =>
    obtain ⟨symbol, rfl⟩ := scanText_unknownSymbol hfault
    exact .fail (unknownSymbol_not_atBottom symbol) _

theorem takeValue_emptied (c : Calculator α) : (takeValue c).Emptied := by
  obtain ⟨operands, operators⟩ := c
  match operators, operands with
  | op :: rest, _ => exact .fail (by simp [Fault.AtBottom]) _
  | [], [x] => exact nofun
  | [], [] | [], x :: y :: more => exact fun _ _ _ => rfl

/-- An evaluation that stops at one of these faults leaves no operators, from any
calculator. -/
theorem evaluate_emptied (text : String) (c : Calculator α) : (c.evaluate I text).Emptied :=
  (acceptText_emptied I text.toList c).andThen fun _ =>
    (closeGroup_emptied I _).andThen fun _ => takeValue_emptied _

/-! Without operators -/

/-- Without operators there is no token but an operand that is accepted. -/
theorem accept_fault_of_nil {token : Token} {c : Calculator α} (h : c.operators = [])
    {fault : Fault} (hfault : (accept I token c).answer = .error fault) :
    fault = .strayRightParen := by
  cases token with
  | operand x => contradiction
  | operator op =>
    rw [accept, acceptOperator_of_nil I op h] at hfault
    exact (Except.error.inj hfault).symm

/-- Without operators, the end of a text is one closing parenthesis too many. -/
theorem evaluate_heaped (text : String) {c : Calculator α} (h : c.operators = []) :
    Heaped I c (c.evaluate I text).calculator ∧
      ∃ fault, (c.evaluate I text).answer = .error fault ∧
        (fault = .strayRightParen ∨ ∃ symbol, fault = .unknownSymbol symbol) := by
  have hending := evaluate_ending I text c
  have hheaped (tokens : List Token) := acceptAll_heaped I tokens h
  generalize (c.evaluate I text).answer = answer at hending ⊢
  generalize (c.evaluate I text).calculator = last at hending ⊢
  cases hending with
  | @token front back token fault _ _ htoken =>
    have hfront := hheaped front
    refine ⟨hfront.trans I (accept_heaped I token hfront.operators), fault, rfl, .inl ?_⟩
    exact accept_fault_of_nil I hfront.operators htoken
  | @text fault _ hfault =>
    exact ⟨hheaped _, fault, rfl, .inr (scanText_unknownSymbol hfault)⟩
  | @close fault _ _ hclose =>
    have hall := hheaped (scanText text.toList).tokens
    rw [closeGroup_of_nil I hall.operators] at hclose ⊢
    exact ⟨hall, fault, rfl, .inl (Except.error.inj hclose).symm⟩
  | value _ _ hclose =>
    -- There is no parenthesis left that the end of the text could close.
    rw [closeGroup_of_nil I (hheaped _).operators] at hclose
    contradiction

end Calculator

theorem Operation.perform_heaped {op : Operation} (hop : op ≠ .reset) {c : Calculator α}
    (h : c.operators = []) : Calculator.Heaped I c (op.perform I c).calculator := by
  cases op with
  | evaluate text => exact (Calculator.evaluate_heaped I text h).1
  | accept token => exact Calculator.accept_heaped I token h
  | acceptOperator op =>
    rw [perform, Calculator.acceptOperator_of_nil I op h]
    exact .refl I h
  | reduceTop =>
    rw [perform, Calculator.reduceTop_of_nil I h]
    exact .refl I h
  | closeGroup =>
    rw [perform, Calculator.closeGroup_of_nil I h]
    exact .refl I h
  | reset => contradiction

/-- The operators stay used up through every run of operations without a reset. -/
theorem Calculator.after_heaped {ops : List Operation} (hops : .reset ∉ ops)
    {c : Calculator α} (h : c.operators = []) : Calculator.Heaped I c (c.after I ops) := by
  induction ops generalizing c with
  | nil => exact .refl I h
  | cons op rest ih =>
    rw [List.mem_cons, not_or] at hops
    obtain ⟨hop, hrest⟩ := hops
    have hfirst := op.perform_heaped I (Ne.symm hop) h
    exact hfirst.trans I (ih hrest hfirst.operators)

/-- Whatever the stacks held, an evaluation that stops at a stray closing parenthesis or at
the count of its operands leaves no operators. From then on, until a reset, whatever is
asked of the calculator and whether it faults or not: there are no operators, literals are
all that lies on top of the operands of before, and every evaluation ends in a fault. -/
theorem last_parenthesis_stays_gone (power : Float → Float → Float) (n : Notation)
    (c : Calculator n.Result) :
    (∀ (text : String) (fault : Fault),
      (c.evaluate (n.interpretation power) text).answer = .error fault →
      (fault = .strayRightParen ∨ ∃ found, fault = .operandCount found) →
        (c.evaluate (n.interpretation power) text).calculator.operators = []) ∧
    (c.operators = [] → ∀ ops : List Operation, .reset ∉ ops →
      let later := c.after (n.interpretation power) ops
      later.operators = [] ∧
      (∃ values : List Float,
        later.operands = values.map (n.interpretation power).literal ++ c.operands) ∧
      ∀ text, ∃ fault, (later.evaluate (n.interpretation power) text).answer = .error fault ∧
        (fault = .strayRightParen ∨ ∃ symbol, fault = .unknownSymbol symbol)) := by
  refine ⟨fun text => c.evaluate_emptied (n.interpretation power) text, fun hnil ops hops => ?_⟩
  have hheaped := c.after_heaped (n.interpretation power) hops hnil
  refine ⟨hheaped.operators, hheaped.operands, fun text => ?_⟩
  exact (Calculator.evaluate_heaped (n.interpretation power) text hheaped.operators).2

/-- A product behind one closing parenthesis too many, and an empty group: neither a group
nor a sum gets going after that. -/
theorem last_parenthesis_stays_gone_product :
    let c : Calculator String := .initial
    let left := (c.evaluate .operatorFirst "(1+2))*3").calculator
    let ops : List Operation :=
      [.acceptOperator .leftParen, .evaluate "4", .reduceTop, .closeGroup]
    let count : Fault := .operandCount 0
    ((c.evaluate .operatorFirst "(1+2))*3").answer = .error .strayRightParen ∧
      left.operators = []) ∧
    ((c.evaluate .operatorFirst "()").answer = .error count ∧
      (count = .strayRightParen ∨ ∃ found, count = .operandCount found) ∧
      (c.evaluate .operatorFirst "()").calculator.operators = []) ∧
    .reset ∉ ops ∧ (left.after .operatorFirst ops).operators = [] ∧
    ∃ fault, ((left.after .operatorFirst ops).evaluate .operatorFirst "5+6").answer =
      .error fault := by
  intro c left ops count
  have hstray : (c.evaluate .operatorFirst "(1+2))*3").answer = .error .strayRightParen := by
    rw [Calculator.evaluate, Calculator.acceptText, scanText_eq_scanPieces]
    rfl
  have hcount : (c.evaluate .operatorFirst "()").answer = .error count := by
    rw [Calculator.evaluate, Calculator.acceptText, scanText_eq_scanPieces]
    rfl
  have hbottom : count = .strayRightParen ∨ ∃ found, count = .operandCount found :=
    .inr ⟨0, rfl⟩
  have hops : .reset ∉ ops := by simp [ops]
  obtain ⟨hempty, -⟩ := last_parenthesis_stays_gone Platform.power .operatorFirst c
  obtain ⟨-, hlater⟩ := last_parenthesis_stays_gone Platform.power .operatorFirst left
  have hleft : left.operators = [] := hempty "(1+2))*3" _ hstray (.inl rfl)
  obtain ⟨hoperators, -, hfaults⟩ := hlater hleft ops hops
  obtain ⟨fault, hfault, -⟩ := hfaults "5+6"
  exact ⟨⟨hstray, hleft⟩, ⟨hcount, hbottom, hempty "()" count hcount hbottom⟩, hops, hoperators,
    fault, hfault⟩

end InfixCalculator
