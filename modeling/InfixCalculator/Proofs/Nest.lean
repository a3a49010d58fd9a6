import InfixCalculator.Proofs.StackProgram
import InfixCalculator.Proofs.Grouping

/-!
Token sequences with balanced parentheses, whatever stands between them: the
operators of a group cut it into segments of any number of operands and inner
groups. Every token sequence is such a nest, or goes on after a nest with an
unmatched closing parenthesis, or ends in a nest after an unmatched opening one.
-/
namespace InfixCalculator

inductive Nest where
  | done
  | operand (x : Float) (rest : Nest)
  | operator (op : BinaryOperator) (rest : Nest)
  | group (inner rest : Nest)

namespace Nest

def tokens : Nest → List Token
  | done => []
  | operand x rest => .operand x :: rest.tokens
  | operator op rest => .operator (.binary op) :: rest.tokens
  | group inner rest =>
    .operator .leftParen :: inner.tokens ++ .operator .rightParen :: rest.tokens

/-- The program of the first segment, and the operators of this level with the
programs of the segments behind them. -/
def segments : Nest → Program × List (Link Program)
  | done => ([], [])
  | operand x rest => (.push x :: rest.segments.1, rest.segments.2)
  | operator op rest => ([], (op, rest.segments.1) :: rest.segments.2)
  | group inner rest =>
    ((reference inner.segments.1 inner.segments.2).join .programs ++ rest.segments.1,
      rest.segments.2)

/-- The tokens in the order in which the reference bracketing of the segments
applies them. -/
def program (n : Nest) : Program := (reference n.segments.1 n.segments.2).join .programs

@[simp] theorem tokens_done : done.tokens = [] := rfl
@[simp] theorem tokens_operand (x : Float) (rest : Nest) :
    (operand x rest).tokens = .operand x :: rest.tokens := rfl
@[simp] theorem tokens_operator (op : BinaryOperator) (rest : Nest) :
    (operator op rest).tokens = .operator (.binary op) :: rest.tokens := rfl
@[simp] theorem tokens_group (inner rest : Nest) :
    (group inner rest).tokens =
      .operator .leftParen :: (inner.tokens ++ .operator .rightParen :: rest.tokens) := rfl

@[simp] theorem segments_group (inner rest : Nest) :
    (group inner rest).segments =
      (inner.program ++ rest.segments.1, rest.segments.2) := rfl

/-- Nests with an unmatched closing parenthesis between any two of them. -/
def chain (first : Nest) : List Nest → List Token
  | [] => first.tokens
  | next :: more => first.tokens ++ .operator .rightParen :: next.chain more

/-- A token sequence closes more than it opens after some nest, or leaves open a
parenthesis before some nest, or is a nest. -/
theorem exists_chain_or_unclosed (tokens : List Token) :
    (∃ (n : Nest) (more : List Nest), tokens = n.chain more) ∨
    ∃ (front : List Token) (n : Nest), tokens = front ++ .operator .leftParen :: n.tokens := by
  induction tokens with
  | nil => exact .inl ⟨done, [], rfl⟩
  | cons token rest ih =>
    rcases ih with ⟨n, more, rfl⟩ | ⟨front, n, rfl⟩
    · match token with
      | .operand x => exact .inl ⟨operand x n, more, by cases more <;> rfl⟩
      | .operator (.binary op) => exact .inl ⟨operator op n, more, by cases more <;> rfl⟩
      | .operator .rightParen => exact .inl ⟨done, n :: more, rfl⟩
      | .operator .leftParen =>
        cases more with
        | nil => exact .inr ⟨[], n, rfl⟩
        | cons next more =>
          refine .inl ⟨group n next, more, ?_⟩
          cases more <;> simp [chain]
    · exact .inr ⟨token :: front, n, rfl⟩

end Nest

end InfixCalculator
