import InfixCalculator.Calculator

/-!
What the program reports about its work: records with a severity, of which a
threshold lets pass those that are severe enough.
-/
namespace InfixCalculator

inductive LogLevel where
  | debug | info | warning | error
  deriving DecidableEq, Repr

namespace LogLevel

def name : LogLevel → String
  | .debug => "DEBUG"
  | .info => "INFO"
  | .warning => "WARNING"
  | .error => "ERROR"

def severity : LogLevel → Nat
  | .debug => 10
  | .info => 20
  | .warning => 30
  | .error => 40

end LogLevel

/-- The severity that a threshold name stands for. -/
def thresholdOfName? : String → Option Nat
  | "CRITICAL" | "FATAL" => some 50
  | "ERROR" => some 40
  | "WARNING" | "WARN" => some 30
  | "INFO" => some 20
  | "DEBUG" => some 10
  | "NOTSET" => some 0
  | _ => none

inductive Logger where
  | evaluator | interactive | batch | program
  deriving DecidableEq, Repr

def Logger.name : Logger → String
  | .evaluator => "core.infix_evaluator"
  | .interactive => "session.repl"
  | .batch => "session.batch"
  | .program => "main"

structure LogRecord where
  logger : Logger
  level : LogLevel
  message : String
  deriving DecidableEq, Repr

namespace LogRecord

def line (time : String) (r : LogRecord) : String :=
  time ++ " - " ++ r.logger.name ++ " - " ++ r.level.name ++ " - " ++ r.message ++ "\n"

def atLeast (threshold : Nat) (records : List LogRecord) : List LogRecord :=
  records.filter (threshold ≤ ·.level.severity)

def evaluating (n : Notation) (text : String) : LogRecord :=
  ⟨.evaluator, .debug, "Evaluating " ++ quoted text ++ " as " ++ n.name⟩

def reduced (n : Notation) (r : Reduction n.Result) : LogRecord :=
  ⟨.evaluator, .debug,
    "Reduced " ++ n.describe r.left ++ " " ++ r.operator.symbol.toString ++ " " ++
      n.describe r.right ++ " -> " ++ n.describe r.result⟩

/-- The records of an evaluation, whether it succeeded or not. -/
def ofEvaluation (n : Notation) (text : String) (run : Run n.Result β) : List LogRecord :=
  evaluating n text :: run.reductions.map (reduced n)

end LogRecord

end InfixCalculator
