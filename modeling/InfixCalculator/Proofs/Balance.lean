import InfixCalculator.Proofs.Applications

/-!
What accepted tokens do to the sizes of the stacks. Every operand and every binary
operator changes by one how many more operands there are than operators that wait for
them, whenever it is applied; every parenthesis changes the number of open ones by one.
On an orderly stack a fault means that one of these two numbers has run out.
-/
namespace InfixCalculator

variable {α : Type} (I : Interpretation α)

namespace Token

def isOperand : Token → Bool
  | operand _ => true
  | operator _ => false

def isBinary : Token → Bool
  | operator (.binary _) => true
  | _ => false

def isParen (paren : Operator) : Token → Bool
  | operand _ => false
  | operator op => op = paren

/-- The operands among some tokens, less the binary operators. -/
def surplus (tokens : List Token) : Int := tokens.countP isOperand - tokens.countP isBinary

/-- The opening parentheses among some tokens, less the closing ones. -/
def depth (tokens : List Token) : Int :=
  tokens.countP (isParen .leftParen) - tokens.countP (isParen .rightParen)

@[simp] theorem surplus_nil : surplus [] = 0 := rfl
@[simp] theorem depth_nil : depth [] = 0 := rfl

theorem surplus_append (tokens others : List Token) :
    surplus (tokens ++ others) = surplus tokens + surplus others := by
  simp only [surplus, List.countP_append]
  omega

theorem depth_append (tokens others : List Token) :
    depth (tokens ++ others) = depth tokens + depth others := by
  simp only [depth, List.countP_append]
  omega

theorem surplus_cons (token : Token) (rest : List Token) :
    surplus (token :: rest) = surplus [token] + surplus rest := surplus_append [token] rest

theorem depth_cons (token : Token) (rest : List Token) :
    depth (token :: rest) = depth [token] + depth rest := depth_append [token] rest

@[simp] theorem surplus_operand (x : Float) : surplus [operand x] = 1 := rfl
@[simp] theorem surplus_binary (op : BinaryOperator) : surplus [operator (.binary op)] = -1 := rfl
@[simp] theorem surplus_leftParen : surplus [operator .leftParen] = 0 := rfl
@[simp] theorem surplus_rightParen : surplus [operator .rightParen] = 0 := rfl
@[simp] theorem depth_operand (x : Float) : depth [operand x] = 0 := rfl
@[simp] theorem depth_binary (op : BinaryOperator) : depth [operator (.binary op)] = 0 := rfl
@[simp] theorem depth_leftParen : depth [operator .leftParen] = 1 := rfl
@[simp] theorem depth_rightParen : depth [operator .rightParen] = -1 := rfl

end Token

namespace Calculator

/-- The operands on their stack, less the binary operators that wait. -/
def surplus (c : Calculator α) : Int :=
  c.operands.length - c.operators.countP fun op => !op.isParenthesis

/-- The open parentheses on the stack. -/
def openCount (c : Calculator α) : Int := c.operators.count .leftParen

@[simp] theorem surplus_initial : (initial : Calculator α).surplus = 0 := rfl
@[simp] theorem openCount_initial : (initial : Calculator α).openCount = 1 := rfl

@[simp] theorem surplus_pushOperand (x : α) (c : Calculator α) :
    (c.pushOperand x).surplus = c.surplus + 1 := by
  simp only [surplus, operands_pushOperand, operators_pushOperand, List.length_cons]
  omega

@[simp] theorem openCount_pushOperand (x : α) (c : Calculator α) :
    (c.pushOperand x).openCount = c.openCount := rfl

@[simp] theorem surplus_binary (operands : List α) (op : BinaryOperator) (rest : List Operator) :
    (⟨operands, .binary op :: rest⟩ : Calculator α).surplus =
      (⟨operands, rest⟩ : Calculator α).surplus - 1 := by
  simp only [surplus, List.countP_cons, Operator.isParenthesis]
  simp
  omega

@[simp] theorem openCount_binary (operands : List α) (op : BinaryOperator)
    (rest : List Operator) :
    (⟨operands, .binary op :: rest⟩ : Calculator α).openCount =
      (⟨operands, rest⟩ : Calculator α).openCount := by
  simp [openCount]

theorem surplus_pushBinary (op : BinaryOperator) (c : Calculator α) :
    (c.pushOperator (.binary op)).surplus = c.surplus - 1 :=
  surplus_binary c.operands op c.operators

theorem openCount_pushBinary (op : BinaryOperator) (c : Calculator α) :
    (c.pushOperator (.binary op)).openCount = c.openCount :=
  openCount_binary c.operands op c.operators

theorem surplus_pushLeftParen (c : Calculator α) :
    (c.pushOperator .leftParen).surplus = c.surplus := rfl

theorem openCount_pushLeftParen (c : Calculator α) :
    (c.pushOperator .leftParen).openCount = c.openCount + 1 := by
  simp [openCount]

theorem openCount_of_nil {c : Calculator α} (h : c.operators = []) : c.openCount = 0 := by
  rw [openCount, h]
  rfl

/-- An orderly stack that is not empty has an open parenthesis at its bottom. -/
theorem openCount_pos {c : Calculator α} (h : Orderly c.operators) (hne : c.operators ≠ []) :
    0 < c.openCount := by
  have hlast := h.bottom _ (List.getLast?_eq_some_getLast hne)
  have hmem : .leftParen ∈ c.operators := hlast ▸ List.getLast_mem hne
  exact Int.natCast_pos.mpr (List.count_pos_iff.mpr hmem)

/-- An applied operator makes one operand of two. -/
theorem Applies.balance {c last : Calculator α} (h : Applies I c last) :
    last.surplus = c.surplus ∧ last.openCount = c.openCount := by
  induction h with
  | nothing c => exact ⟨rfl, rfl⟩
  | @more op left right below operators last _ ih =>
    rw [ih.1, ih.2, surplus_binary, openCount_binary]
    refine ⟨?_, rfl⟩
    simp only [surplus, List.length_cons]
    omega

/-- Closing a group takes off its parenthesis. -/
theorem closeGroup_balance {c : Calculator α} (h : (closeGroup I c).answer = .ok ()) :
    (closeGroup I c).calculator.surplus = c.surplus ∧
      (closeGroup I c).calculator.openCount + 1 = c.openCount := by
  rw [← openCount_pushLeftParen]
  exact (closeGroup_applies I h).balance

/-- One accepted token moves both counts of the stacks by its own. -/
theorem accept_balance {token : Token} {c : Calculator α}
    (h : (accept I token c).answer = .ok ()) :
    (accept I token c).calculator.surplus = c.surplus + Token.surplus [token] ∧
      (accept I token c).calculator.openCount = c.openCount + Token.depth [token] := by
  have haccepts := accept_accepts I h
  generalize (accept I token c).calculator = last at haccepts ⊢
  cases haccepts with
  | operand x => simp
  | leftParen => simp [surplus_pushLeftParen, openCount_pushLeftParen]
  | rightParen happlies =>
    obtain ⟨hsurplus, hopen⟩ := happlies.balance
    rw [surplus_pushLeftParen] at hsurplus
    rw [openCount_pushLeftParen] at hopen
    rw [Token.surplus_rightParen, Token.depth_rightParen]
    omega
  | binary happlies =>
    obtain ⟨hsurplus, hopen⟩ := happlies.balance
    rw [surplus_pushBinary, openCount_pushBinary, Token.surplus_binary, Token.depth_binary]
    omega

/-- Tokens that are accepted change the two numbers by their own, whatever their order. -/
theorem acceptAll_balance {tokens : List Token} {c : Calculator α}
    (h : (acceptAll I tokens c).answer = .ok ()) :
    (acceptAll I tokens c).calculator.surplus = c.surplus + Token.surplus tokens ∧
      (acceptAll I tokens c).calculator.openCount = c.openCount + Token.depth tokens := by
  induction tokens generalizing c with
  | nil => simp [Run.ok]
  | cons token rest ih =>
    obtain ⟨⟨⟩, hfirst, hrest, hcalculator⟩ := Run.andThen_eq_ok h
    obtain ⟨fsurplus, fopen⟩ := accept_balance I hfirst
    obtain ⟨hsurplus, hopen⟩ := ih hrest
    rw [acceptAll_cons, hcalculator, Token.surplus_cons, Token.depth_cons]
    omega

/-! Faults -/

/-- Why an action on an orderly stack stops: there is no open parenthesis left, or an
operator waits on top and there are no more operands than operators that wait. -/
inductive Stuck (c : Calculator α) : Fault → Prop where
  | stray (h : c.operators = []) : Stuck c .strayRightParen
  | lacking {op top : BinaryOperator} (mem : .binary op ∈ c.operators)
      (waiting : c.operators.head? = some (.binary top)) (few : c.surplus ≤ 0) :
      Stuck c (.missingOperand (some op.symbol.toString))

/-- An operator faults only for want of its two operands. -/
theorem applyTop_error {op : BinaryOperator} {c : Calculator α} {fault : Fault}
    (h : (applyTop I (.binary op) c).answer = .error fault) :
    fault = .missingOperand (some op.symbol.toString) ∧ c.operands.length ≤ 1 := by
  obtain ⟨operands, operators⟩ := c
  match operands with
  | [] => exact ⟨(Except.error.inj h).symm, by simp⟩
  | [x] => exact ⟨(Except.error.inj h).symm, by simp⟩
  | right :: left :: below => contradiction

theorem stuck_of_applyTop {op : BinaryOperator} {operands : List α} {rest : List Operator}
    {fault : Fault} (h : (applyTop I (.binary op) ⟨operands, rest⟩).answer = .error fault) :
    Stuck ⟨operands, .binary op :: rest⟩ fault := by
  obtain ⟨rfl, hlength⟩ := applyTop_error I h
  refine .lacking (List.mem_cons_self) rfl ?_
  rw [surplus_binary]
  simp only [surplus] at hlength ⊢
  omega

/-- A group whose end faults was stuck before: operators that are taken off on the way there
change neither count. -/
theorem closeOperators_stuck {operands : List α} {operators : List Operator}
    (h : Orderly operators) {fault : Fault}
    (hfault : (closeOperators I operands operators).answer = .error fault) :
    Stuck ⟨operands, operators⟩ fault := by
  induction operators generalizing operands with
  | nil =>
    rw [← Except.error.inj hfault]
    exact .stray rfl
  | cons op rest ih =>
    cases op with
    | leftParen => contradiction
    | rightParen => exact absurd (by simp) h.unclosed
    | binary op =>
      rcases Run.andThen_eq_error hfault with happly | ⟨⟨⟩, happly, hrest⟩
      · exact stuck_of_applyTop I happly
      · -- What is lacking deeper in the group is already lacking here, since applying an
        -- operator keeps the surplus.
        obtain ⟨hsurplus, -⟩ := (applyTop_applies I happly).balance
        obtain ⟨applied, left, right, below, -, rfl, hlast⟩ := applyTop_ok I happly
        rw [hlast] at hrest hsurplus
        cases ih h.tail hrest with
        | stray hnil =>
          obtain rfl : rest = [] := hnil
          exact absurd (h.bottom _ rfl) (by simp)
        | lacking mem waiting few =>
          exact .lacking (List.mem_cons_of_mem _ mem) rfl (hsurplus ▸ few)

theorem closeGroup_stuck {c : Calculator α} (h : Orderly c.operators) {fault : Fault}
    (hfault : (closeGroup I c).answer = .error fault) : Stuck c fault :=
  closeOperators_stuck I h hfault

theorem reduceTop_stuck {c : Calculator α} (h : Orderly c.operators) {fault : Fault}
    (hfault : (reduceTop I c).answer = .error fault) : Stuck c fault := by
  obtain ⟨operands, operators⟩ := c
  match operators with
  | [] =>
    rw [← Except.error.inj hfault]
    exact .stray rfl
  | .leftParen :: rest => contradiction
  | .rightParen :: rest => exact absurd (by simp) h.unclosed
  | .binary op :: rest =>
    rcases Run.andThen_eq_error hfault with happly | ⟨_, -, hok⟩
    · exact stuck_of_applyTop I happly
    · contradiction

theorem acceptOperator_stuck {op : Operator} {c : Calculator α} (h : Orderly c.operators)
    {fault : Fault} (hfault : (acceptOperator I op c).answer = .error fault) : Stuck c fault := by
  have harrival := acceptOperator_arrival I op c
  generalize acceptOperator I op c = run at harrival hfault
  cases harrival with
  | stray hnil =>
    rw [← Except.error.inj hfault]
    exact .stray hnil
  | close => exact closeGroup_stuck I h hfault
  | push => contradiction
  | reopen =>
    rcases Run.andThen_eq_error hfault with hclose | ⟨_, -, hok⟩
    · exact closeGroup_stuck I h hclose
    · contradiction
  | replace =>
    rcases Run.andThen_eq_error hfault with hreduce | ⟨_, -, hok⟩
    · exact reduceTop_stuck I h hreduce
    · contradiction

/-- A token that faults meets stacks that were stuck before it came. -/
theorem accept_stuck {token : Token} {c : Calculator α} (h : Orderly c.operators)
    {fault : Fault} (hfault : (accept I token c).answer = .error fault) : Stuck c fault := by
  cases token with
  | operand x => contradiction
  | operator op => exact acceptOperator_stuck I h hfault

theorem Stuck.operators_of_stray {c : Calculator α} (h : Stuck c .strayRightParen) :
    c.operators = [] := by
  cases h with
  | stray hnil => exact hnil

end Calculator

end InfixCalculator
