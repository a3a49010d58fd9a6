import InfixCalculator.Expression
import InfixCalculator.Token
import InfixCalculator.Fault

/-!
The three forms of an answer: its value as a double, or the expression written
with each operator before its operands, or after them. In the two written forms
every operation stands in parentheses, so they need no priorities.
-/
namespace InfixCalculator

inductive Notation where
  | value
  | operatorFirst
  | operatorLast
  deriving DecidableEq, Repr

namespace Notation

def name : Notation → String
  | .value => "value"
  | .operatorFirst => "prefix"
  | .operatorLast => "postfix"

def ofName? : String → Option Notation
  | "value" => some .value
  | "prefix" => some .operatorFirst
  | "postfix" => some .operatorLast
  | _ => none

/-- The names in alphabetical order. -/
def names : List String := ["postfix", "prefix", "value"]

def unknownMessage (name : String) : String :=
  "Unknown notation '" ++ name ++ "', expected one of [" ++
    ", ".intercalate (names.map quoted) ++ "]"

@[simp] theorem ofName?_name (n : Notation) : ofName? n.name = some n := by cases n <;> rfl

/-- What a calculator of this notation computes with. -/
def Result : Notation → Type
  | .value => Float
  | .operatorFirst | .operatorLast => String

end Notation

/-- The arithmetic of doubles: dividing by zero gives an infinity or no number.
Powers are those of a library. -/
def BinaryOperator.apply (power : Float → Float → Float) (op : BinaryOperator)
    (x y : Float) : Float :=
  match op with
  | .add => x + y
  | .sub => x - y
  | .mul => x * y
  | .div => x / y
  | .pow => power x y

def Interpretation.arithmetic (power : Float → Float → Float) : Interpretation Float where
  literal x := x
  combine := BinaryOperator.apply power

/-- The operator, the left text and the right text in parentheses. -/
def Interpretation.operatorFirst : Interpretation String where
  literal := literalText
  combine op left right := "(" ++ op.symbol.toString ++ " " ++ left ++ " " ++ right ++ ")"

/-- The left text, the right text and the operator in parentheses. -/
def Interpretation.operatorLast : Interpretation String where
  literal := literalText
  combine op left right := "(" ++ left ++ " " ++ right ++ " " ++ op.symbol.toString ++ ")"

namespace Notation

def interpretation (power : Float → Float → Float) : (n : Notation) → Interpretation n.Result
  | .value => .arithmetic power
  | .operatorFirst => .operatorFirst
  | .operatorLast => .operatorLast

def shown : (n : Notation) → n.Result → String
  | .value, x => answerText x
  | .operatorFirst, text => text
  | .operatorLast, text => text

/-- The result as the log names it. -/
def describe : (n : Notation) → n.Result → String
  | .value, x => "NumericResult(" ++ answerText x ++ ")"
  | .operatorFirst, text => "PrefixResult(" ++ quoted text ++ ")"
  | .operatorLast, text => "PostfixResult(" ++ quoted text ++ ")"

/-- Texts are equal as texts. Values are equal as numbers, and what is no number
equals what is no number. -/
def sameResult : (n : Notation) → n.Result → n.Result → Bool
  | .value, (x : Float), (y : Float) => (x.isNaN && y.isNaN) || x == y
  | .operatorFirst, (s : String), (t : String) => s == t
  | .operatorLast, (s : String), (t : String) => s == t

def isUndefined : (n : Notation) → n.Result → Bool
  | .value, (x : Float) => x.isNaN
  | .operatorFirst, _ | .operatorLast, _ => false

def hashResult : (n : Notation) → n.Result → UInt64
  | .value, x => mixHash 0 (numberHash x)
  | .operatorFirst, (text : String) => mixHash 1 (hash text)
  | .operatorLast, (text : String) => mixHash 2 (hash text)

end Notation

structure Answer where
  form : Notation
  result : form.Result

/-- Results of different notations are never equal. -/
instance : BEq Answer where
  beq a b := if h : a.form = b.form then b.form.sameResult (h ▸ a.result) b.result else false

instance : Hashable Answer where
  hash a := a.form.hashResult a.result

/-- An operator applied to two results. A parenthesis is no such operator. -/
def Notation.apply (power : Float → Float → Float) (n : Notation) (op : Operator)
    (left right : n.Result) : Except Fault n.Result :=
  match op with
  | .binary op => .ok ((n.interpretation power).combine op left right)
  | paren => .error (.parenthesisApplied paren)

end InfixCalculator
