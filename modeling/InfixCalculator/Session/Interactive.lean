import InfixCalculator.Session.Attempt
import InfixCalculator.Settings
import InfixCalculator.Text.Blank
import InfixCalculator.Text.Line

/-!
A conversation with the user: each line is an expression, answered at once, until
the input ends or the user takes leave.
-/
namespace InfixCalculator.Interactive

inductive Request where
  | nothing
  | leave
  | expression (text : String)
  deriving DecidableEq, Repr

def Request.ofLine (s : Settings) (line : List Char) : Request :=
  let text := String.ofList (trim line)
  if text.isEmpty then .nothing
  else if text ∈ s.farewells then .leave
  else .expression text

/-- A fault in an answer is reported as a warning if it is a mistake with a name,
and as an error otherwise. -/
def faultRecord (text : String) (fault : Fault) : LogRecord :=
  match fault.kind? with
  | some kind =>
    ⟨.interactive, .warning, "Evaluation failed (" ++ kind.name ++ "): " ++ quoted text⟩
  | none =>
    ⟨.interactive, .error, "Malformed expression " ++ quoted text ++ ": " ++ fault.message⟩

def finishedRecord (failures : Nat) : LogRecord :=
  ⟨.interactive, .info, "REPL finished with " ++ toString failures ++ " failed lines"⟩

/-- The part of a conversation that has taken place. -/
structure Transcript (n : Notation) where
  failures : Nat
  output : String
  calculator : Calculator n.Result
  records : List LogRecord

def formatFailure (s : Settings) (fault : Fault) : String := s.failureMark ++ " " ++ fault.message

/-- What the user reads about an expression. -/
def answerLine (s : Settings) (n : Notation) : Except Fault n.Result → String
  | .ok result => n.shown result ++ "\n"
  | .error fault => formatFailure s fault ++ "\n"

section

variable (power : Float → Float → Float) (s : Settings) (n : Notation)

def answer (text : String) (c : Calculator n.Result) : Transcript n :=
  let tried := attempt power n text c
  { failures := if isFailure tried.answer then 1 else 0
    output := answerLine s n tried.answer
    calculator := tried.calculator
    records := match tried.answer with
      | .ok _ => tried.records
      | .error fault => tried.records ++ [faultRecord text fault] }

/-- What comes of one line, unless the user takes leave. -/
def turn (line : List Char) (c : Calculator n.Result) : Option (Transcript n) :=
  match Request.ofLine s line with
  | .leave => none
  | .nothing => some ⟨0, "", c, []⟩
  | .expression text => some (answer power s n text c)

def Transcript.append {n : Notation} (first : Transcript n) (second : Transcript n) :
    Transcript n where
  failures := first.failures + second.failures
  output := first.output ++ second.output
  calculator := second.calculator
  records := first.records ++ second.records

/-- Takes the lines in turn. The prompt is written before each line is read, so
also before the end of the input. -/
def converse (prompt : String) : List (List Char) → Calculator n.Result → Transcript n
  | [], c => ⟨0, prompt, c, []⟩
  | line :: rest, c =>
    match turn power s n line c with
    | none => ⟨0, prompt, c, []⟩
    | some first =>
      let more := first.append (converse prompt rest first.calculator)
      { more with output := prompt ++ more.output }

def run (prompt : String) (input : String) (c : Calculator n.Result) : Transcript n :=
  let transcript := converse power s n prompt (inputLines input.toList) c
  { transcript with records := transcript.records ++ [finishedRecord transcript.failures] }

end

end InfixCalculator.Interactive
