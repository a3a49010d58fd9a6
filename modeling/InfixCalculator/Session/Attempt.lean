import InfixCalculator.Log

/-!
One expression in a session. The same calculator serves one expression after
another; after a fault its stacks are cleared.
-/
namespace InfixCalculator

structure Attempt (n : Notation) where
  answer : Except Fault n.Result
  calculator : Calculator n.Result
  records : List LogRecord

def attempt (power : Float → Float → Float) (n : Notation) (text : String)
    (c : Calculator n.Result) : Attempt n :=
  let run := c.evaluate (n.interpretation power) text
  { answer := run.answer
    calculator := match run.answer with
      | .ok _ => run.calculator
      | .error _ => run.calculator.reset
    records := LogRecord.ofEvaluation n text run }

/-- Attempts whose outcome does not matter: their faults leave the stacks as they
are. -/
def evaluateAll (power : Float → Float → Float) (n : Notation) :
    List String → Calculator n.Result → Calculator n.Result × List LogRecord
  | [], c => (c, [])
  | text :: rest, c =>
    let run := c.evaluate (n.interpretation power) text
    let (last, records) := evaluateAll power n rest run.calculator
    (last, LogRecord.ofEvaluation n text run ++ records)

def isFailure : Except Fault α → Bool
  | .ok _ => false
  | .error _ => true

end InfixCalculator
