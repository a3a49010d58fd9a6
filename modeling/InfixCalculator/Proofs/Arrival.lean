import InfixCalculator.Proofs.Acceptance

/-!
What can happen when an operator arrives, and how an evaluation can end, each as a
list of cases.
-/
namespace InfixCalculator

variable {α β γ : Type} (I : Interpretation α)

theorem Operator.stackPriority_lt_leftParen (top : Operator) :
    top.stackPriority < leftParen.incomingPriority := by
  cases top with
  | binary op => cases op <;> decide
  | leftParen => decide
  | rightParen => decide

namespace Calculator

/-- The run that an arriving operator causes, with the comparison that decides it. -/
inductive Arrival (op : Operator) (c : Calculator α) : Run α Unit → Prop where
  | stray (h : c.operators = []) : Arrival op c (.fail .strayRightParen c)
  | close (h : op = .rightParen) (hc : c.operators ≠ []) : Arrival op c (closeGroup I c)
  | push {top : Operator} (htop : c.operators.head? = some top) (h : op ≠ .rightParen)
      (looser : top.stackPriority < op.incomingPriority) :
      Arrival op c (.ok () (c.pushOperator op))
  | reopen {arriving : BinaryOperator} {top : Operator} (htop : c.operators.head? = some top)
      (h : op = .binary arriving) (tighter : (arriving.priority : Int) < top.stackPriority) :
      Arrival op c ((closeGroup I c).andThen fun _ c =>
        .ok () ((c.pushOperator .leftParen).pushOperator op))
  | replace {arriving : BinaryOperator} {top : Operator} (htop : c.operators.head? = some top)
      (h : op = .binary arriving) (alike : top.stackPriority = arriving.priority) :
      Arrival op c ((reduceTop I c).andThen fun _ c => .ok () (c.pushOperator op))

/-- One of the four cases applies, whatever the stacks hold. -/
theorem acceptOperator_arrival (op : Operator) (c : Calculator α) :
    Arrival I op c (acceptOperator I op c) := by
  obtain ⟨operands, operators⟩ := c
  cases operators with
  | nil => exact .stray rfl
  | cons top below =>
    cases op with
    | rightParen => exact .close rfl (by simp)
    | leftParen =>
      rw [acceptOperator_leftParen I (by simp)]
      exact .push rfl (by simp) top.stackPriority_lt_leftParen
    | binary op =>
      simp only [acceptOperator, reduceCtorEq, if_false, Operator.incomingPriority_binary]
      split
      · exact .push rfl (by simp) (by simpa)
      · split
        · exact .reopen rfl rfl ‹_›
        · rename_i notLooser notTighter
          exact .replace rfl rfl
            (Int.le_antisymm (Int.not_lt.mp notTighter) (Int.not_lt.mp notLooser))

/-- Accepting tokens stops at the first one that faults. -/
theorem acceptAll_eq_error {tokens : List Token} {c : Calculator α} {fault : Fault}
    (h : (acceptAll I tokens c).answer = .error fault) :
    ∃ front token back, tokens = front ++ token :: back ∧ (acceptAll I front c).answer = .ok () ∧
      (accept I token (acceptAll I front c).calculator).answer = .error fault ∧
      (acceptAll I tokens c).calculator =
        (accept I token (acceptAll I front c).calculator).calculator := by
  induction tokens generalizing c with
  | nil => contradiction
  | cons token rest ih =>
    cases hfirst : (accept I token c).answer with
    | error found =>
      rw [acceptAll_cons, (Run.andThen_of_error hfirst).1] at h
      obtain rfl : found = fault := Except.error.inj h
      exact ⟨[], token, rest, rfl, rfl, hfirst, (Run.andThen_of_error hfirst).2⟩
    | ok _ =>
      rw [acceptAll_cons, (Run.andThen_of_ok hfirst).1] at h
      obtain ⟨front, next, back, rfl, hfront, hnext, hlast⟩ := ih h
      refine ⟨token :: front, next, back, rfl, ?_, ?_, ?_⟩
      · rw [acceptAll_cons, (Run.andThen_of_ok hfirst).1, hfront]
      · rw [acceptAll_cons, (Run.andThen_of_ok hfirst).2, hnext]
      · rw [acceptAll_cons, acceptAll_cons, (Run.andThen_of_ok hfirst).2,
          (Run.andThen_of_ok hfirst).2, hlast]

def acceptScan (s : Scan) (c : Calculator α) : Run α Unit :=
  (acceptAll I s.tokens c).andThen fun _ c => s.fault.elim (.ok () c) (.fail · c)

theorem acceptText_eq_acceptScan (text : List Char) (c : Calculator α) :
    acceptText I text c = acceptScan I (scanText text) c := rfl

theorem acceptScan_push (token : Token) (s : Scan) (c : Calculator α) :
    acceptScan I (s.push token) c = (accept I token c).andThen fun _ c => acceptScan I s c := by
  rw [acceptScan, Scan.push, acceptAll_cons, Run.andThen_assoc]
  rfl

/-- How the evaluation of a text ends, given what the text scans to: at a token, at the
fault of the text, at the end of the whole group, or with what the stacks then hold. -/
inductive Ending (s : Scan) (c : Calculator α) : Except Fault α → Calculator α → Prop where
  | token {front back : List Token} {token : Token} {fault : Fault}
      (h : s.tokens = front ++ token :: back) (hfront : (acceptAll I front c).answer = .ok ())
      (htoken : (accept I token (acceptAll I front c).calculator).answer = .error fault) :
      Ending s c (.error fault) (accept I token (acceptAll I front c).calculator).calculator
  | text {fault : Fault} (h : (acceptAll I s.tokens c).answer = .ok ())
      (hfault : s.fault = some fault) :
      Ending s c (.error fault) (acceptAll I s.tokens c).calculator
  | close {fault : Fault} (h : (acceptAll I s.tokens c).answer = .ok ()) (whole : s.fault = none)
      (hclose : (closeGroup I (acceptAll I s.tokens c).calculator).answer = .error fault) :
      Ending s c (.error fault) (closeGroup I (acceptAll I s.tokens c).calculator).calculator
  | value {last : Calculator α} (h : (acceptAll I s.tokens c).answer = .ok ())
      (whole : s.fault = none)
      (hclose : (closeGroup I (acceptAll I s.tokens c).calculator).answer = .ok ())
      (hlast : last = (closeGroup I (acceptAll I s.tokens c).calculator).calculator) :
      Ending s c (takeValue last).answer (takeValue last).calculator

/-- Each evaluation ends in one of the four ways, from any calculator. -/
theorem evaluate_ending (text : String) (c : Calculator α) :
    Ending I (scanText text.toList) c (c.evaluate I text).answer
      (c.evaluate I text).calculator := by
  unfold evaluate acceptText
  generalize scanText text.toList = s
  rw [Run.andThen_assoc]
  cases hall : (acceptAll I s.tokens c).answer with
  | error fault =>
    obtain ⟨front, token, back, htokens, hfront, htoken, hlast⟩ := acceptAll_eq_error I hall
    rw [(Run.andThen_of_error hall).1, (Run.andThen_of_error hall).2, hlast]
    exact .token htokens hfront htoken
  | ok _ =>
    rw [(Run.andThen_of_ok hall).1, (Run.andThen_of_ok hall).2]
    cases hfault : s.fault with
    | some fault => exact .text hall hfault
    | none =>
      simp only [Option.elim, Run.andThen_ok]
      cases hclose : (closeGroup I (acceptAll I s.tokens c).calculator).answer with
      | error fault =>
        rw [(Run.andThen_of_error hclose).1, (Run.andThen_of_error hclose).2]
        exact .close hall hfault hclose
      | ok _ =>
        rw [(Run.andThen_of_ok hclose).1, (Run.andThen_of_ok hclose).2]
        exact .value hall hfault hclose rfl

end Calculator

end InfixCalculator
