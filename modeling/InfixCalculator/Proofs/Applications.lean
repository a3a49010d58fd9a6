import InfixCalculator.Proofs.Arrival

/-!
What an accepted token does, leaving aside the priorities and parentheses that decide it:
operators that wait are applied, the last one first, each to the two topmost operands,
and then the token is put down or takes an open parenthesis off.
-/
namespace InfixCalculator

variable {α : Type} (I : Interpretation α)

namespace Calculator

/-- Some operators are applied that lie on each other without a parenthesis between them. -/
inductive Applies : Calculator α → Calculator α → Prop where
  | nothing (c : Calculator α) : Applies c c
  | more {op : BinaryOperator} {left right : α} {below : List α} {operators : List Operator}
      {last : Calculator α} (h : Applies ⟨I.combine op left right :: below, operators⟩ last) :
      Applies ⟨right :: left :: below, .binary op :: operators⟩ last

/-- What a token can do that is accepted. -/
inductive Accepts (c : Calculator α) : Token → Calculator α → Prop where
  | operand (x : Float) : Accepts c (.operand x) (c.pushOperand (I.literal x))
  | leftParen : Accepts c (.operator .leftParen) (c.pushOperator .leftParen)
  | rightParen {last : Calculator α} (h : Applies I c (last.pushOperator .leftParen)) :
      Accepts c (.operator .rightParen) last
  | binary {op : BinaryOperator} {applied : Calculator α} (h : Applies I c applied) :
      Accepts c (.operator (.binary op)) (applied.pushOperator (.binary op))

/-- Only a binary operator is ever applied, and it makes one operand of two. -/
theorem applyTop_ok {op : Operator} {operands : List α} {rest : List Operator}
    (h : (applyTop I op ⟨operands, rest⟩).answer = .ok ()) :
    ∃ applied left right below, op = .binary applied ∧ operands = right :: left :: below ∧
      (applyTop I op ⟨operands, rest⟩).calculator =
        ⟨I.combine applied left right :: below, rest⟩ := by
  match operands, op with
  | [], _ => contradiction
  | [x], _ => contradiction
  | right :: left :: below, .binary op => exact ⟨op, left, right, below, rfl, rfl, rfl⟩
  | right :: left :: below, .leftParen => contradiction
  | right :: left :: below, .rightParen => contradiction

/-- Closing a group applies its operators and takes off its parenthesis. -/
theorem closeOperators_applies {operands : List α} {operators : List Operator}
    (h : (closeOperators I operands operators).answer = .ok ()) :
    Applies I ⟨operands, operators⟩
      ((closeOperators I operands operators).calculator.pushOperator .leftParen) := by
  induction operators generalizing operands with
  | nil => contradiction
  | cons op rest ih =>
    cases op with
    | leftParen => exact .nothing _
    | binary op =>
      obtain ⟨⟨⟩, happly, hrest, hcalculator⟩ := Run.andThen_eq_ok h
      obtain ⟨applied, left, right, below, hop, rfl, hlast⟩ := applyTop_ok I happly
      obtain rfl := Operator.binary.inj hop
      rw [hlast] at hrest
      simp only [closeOperators, hcalculator, hlast]
      exact .more (ih hrest)
    | rightParen =>
      obtain ⟨⟨⟩, happly, -⟩ := Run.andThen_eq_ok h
      obtain ⟨applied, -, -, -, hop, -⟩ := applyTop_ok I happly
      contradiction

/-- The end of a group only applies operators, if one puts its parenthesis back. -/
theorem closeGroup_applies {c : Calculator α} (h : (closeGroup I c).answer = .ok ()) :
    Applies I c ((closeGroup I c).calculator.pushOperator .leftParen) :=
  closeOperators_applies I h

theorem applyTop_applies {op : BinaryOperator} {operands : List α} {rest : List Operator}
    (h : (applyTop I (.binary op) ⟨operands, rest⟩).answer = .ok ()) :
    Applies I ⟨operands, .binary op :: rest⟩
      (applyTop I (.binary op) ⟨operands, rest⟩).calculator := by
  obtain ⟨applied, left, right, below, hop, rfl, hlast⟩ := applyTop_ok I h
  obtain rfl := Operator.binary.inj hop
  rw [hlast]
  exact .more (.nothing _)

/-- An operator that is alike to an arriving one is no parenthesis. -/
theorem binary_of_alike {top : Operator} {arriving : BinaryOperator}
    (alike : top.stackPriority = arriving.priority) : ∃ op, top = .binary op := by
  have hpositive : (0 : Int) < arriving.priority := Int.natCast_pos.mpr arriving.priority_pos
  cases top with
  | binary op => exact ⟨op, rfl⟩
  | leftParen | rightParen =>
    rw [← alike] at hpositive
    exact absurd hpositive (by decide)

/-- An accepted operator waits on top, behind the applications that it has set off. -/
theorem acceptOperator_accepts {op : Operator} {c : Calculator α}
    (h : (acceptOperator I op c).answer = .ok ()) :
    Accepts I c (.operator op) (acceptOperator I op c).calculator := by
  have harrival := acceptOperator_arrival I op c
  generalize acceptOperator I op c = run at h harrival ⊢
  cases harrival with
  | stray => contradiction
  | close hop =>
    subst hop
    exact .rightParen (closeGroup_applies I h)
  | push htop hop =>
    cases op with
    | binary op => exact .binary (.nothing c)
    | leftParen => exact .leftParen
    | rightParen => exact absurd rfl hop
  | reopen htop hop =>
    obtain ⟨⟨⟩, hclose, -, hcalculator⟩ := Run.andThen_eq_ok h
    subst hop
    rw [hcalculator]
    exact .binary (closeGroup_applies I hclose)
  | replace htop hop alike =>
    obtain ⟨waiting, rfl⟩ := binary_of_alike alike
    obtain ⟨operands, operators⟩ := c
    obtain ⟨rest, rfl⟩ := List.head?_eq_some_iff.mp htop
    obtain ⟨closed, hreduce, -, hcalculator⟩ := Run.andThen_eq_ok h
    obtain ⟨⟨⟩, happly, -, hreduced⟩ := Run.andThen_eq_ok hreduce
    subst hop
    rw [hcalculator, reduceTop, hreduced]
    exact .binary (applyTop_applies I happly)

/-- Whatever token is accepted, it does one of four things. -/
theorem accept_accepts {token : Token} {c : Calculator α}
    (h : (accept I token c).answer = .ok ()) : Accepts I c token (accept I token c).calculator := by
  cases token with
  | operand x => exact .operand x
  | operator op => exact acceptOperator_accepts I h

end Calculator

end InfixCalculator
