/-!
The seven operator characters of infix arithmetic. Each operator has two
priorities: one while it waits on a stack, one while it arrives from the text.
An arriving operator is compared with the waiting one to decide which of the
two is applied first.
-/
namespace InfixCalculator

inductive BinaryOperator where
  | add | sub | mul | div | pow
  deriving DecidableEq, Repr

namespace BinaryOperator

def symbol : BinaryOperator → Char
  | .add => '+'
  | .sub => '-'
  | .mul => '*'
  | .div => '/'
  | .pow => '^'

theorem symbol_injective {a b : BinaryOperator} (h : a.symbol = b.symbol) : a = b := by
  cases a <;> cases b <;> simp_all [symbol]

end BinaryOperator

inductive Operator where
  | binary (op : BinaryOperator)
  | leftParen
  | rightParen
  deriving DecidableEq, Repr

namespace Operator

def symbol : Operator → Char
  | .binary op => op.symbol
  | .leftParen => '('
  | .rightParen => ')'

def ofChar? : Char → Option Operator
  | '+' => some (.binary .add)
  | '-' => some (.binary .sub)
  | '*' => some (.binary .mul)
  | '/' => some (.binary .div)
  | '^' => some (.binary .pow)
  | '(' => some .leftParen
  | ')' => some .rightParen
  | _ => none

/-- The operator written as the whole of a text. -/
def ofText? (text : String) : Option Operator :=
  match text.toList with
  | [c] => ofChar? c
  | _ => none

/-- The priority of an operator that waits on the stack: anything may be put on
top of an open parenthesis. -/
def stackPriority : Operator → Int
  | .binary .add => 1
  | .binary .sub => 1
  | .binary .mul => 2
  | .binary .div => 2
  | .binary .pow => 3
  | .leftParen => 0
  | .rightParen => -1

/-- The priority of an operator that arrives: an open parenthesis is always put
on top. -/
def incomingPriority : Operator → Int
  | .binary .add => 1
  | .binary .sub => 1
  | .binary .mul => 2
  | .binary .div => 2
  | .binary .pow => 3
  | .leftParen => 99
  | .rightParen => -1

def isParenthesis : Operator → Bool
  | .binary _ => false
  | .leftParen | .rightParen => true

@[simp] theorem symbol_binary (op : BinaryOperator) : (binary op).symbol = op.symbol := rfl

@[simp] theorem ofChar?_symbol (op : Operator) : ofChar? op.symbol = some op := by
  cases op with
  | binary op => cases op <;> rfl
  | leftParen => rfl
  | rightParen => rfl

theorem symbol_of_ofChar? {c : Char} {op : Operator} (h : ofChar? c = some op) :
    op.symbol = c := by
  unfold ofChar? at h
  split at h <;> simp_all [symbol, BinaryOperator.symbol, eq_comm]

theorem ofChar?_eq_some_iff {c : Char} {op : Operator} :
    ofChar? c = some op ↔ c = op.symbol :=
  ⟨fun h => (symbol_of_ofChar? h).symm, fun h => h ▸ ofChar?_symbol op⟩

end Operator

end InfixCalculator
