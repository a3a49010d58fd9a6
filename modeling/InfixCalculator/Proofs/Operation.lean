import InfixCalculator.Calculator

/-!
What can be asked of a calculator, one thing after another. A fault does not end
the sequence: the next operation works on the stacks that were left.
-/
namespace InfixCalculator

inductive Operation where
  | evaluate (text : String)
  | accept (token : Token)
  | acceptOperator (op : Operator)
  | reduceTop
  | closeGroup
  | reset

inductive Reply (α : Type) where
  | done
  | closed (paren : Bool)
  | value (x : α)
  deriving DecidableEq, Repr

def Run.reply (run : Run α β) (wrap : β → Reply α) : Run α (Reply α) :=
  { run with answer := run.answer.map wrap }

def Operation.perform (I : Interpretation α) (op : Operation) (c : Calculator α) :
    Run α (Reply α) :=
  match op with
  | .evaluate text => (c.evaluate I text).reply .value
  | .accept token => (c.accept I token).reply fun _ => .done
  | .acceptOperator op => (c.acceptOperator I op).reply fun _ => .done
  | .reduceTop => (c.reduceTop I).reply .closed
  | .closeGroup => (c.closeGroup I).reply fun _ => .done
  | .reset => .ok .done c.reset

/-- The stacks after a sequence of operations, faults or not. -/
def Calculator.after (I : Interpretation α) (c : Calculator α) : List Operation → Calculator α
  | [] => c
  | op :: rest => (op.perform I c).calculator.after I rest

end InfixCalculator
