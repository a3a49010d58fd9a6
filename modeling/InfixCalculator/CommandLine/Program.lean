import InfixCalculator.CommandLine.Options
import InfixCalculator.Session.Batch
import InfixCalculator.Session.Interactive
import InfixCalculator.Session.Source
import InfixCalculator.Text.UpperCase

/-!
The program as a whole: what a command line sets going, and how it ends when the
input, the storage and the terminal are given.
-/
namespace InfixCalculator.CommandLine

/-- Why the program stops before it evaluates anything. -/
inductive StartFault where
  | blankThreshold
  | unknownThreshold (name : String)
  | settings (defect : SettingsDefect)
  | source (fault : SourceFault)
  | blankNotation
  deriving DecidableEq, Repr

def StartFault.message : StartFault → String
  | .blankThreshold => "'list' object has no attribute 'upper'"
  | .unknownThreshold name => "Unknown level: " ++ quoted name
  | .settings defect => defect.message
  | .source fault => fault.message
  | .blankNotation => "unhashable type: 'list'"

inductive Job where
  | batch (n : Notation) (expressions : List String) (path : Option String)
  | interactive (n : Notation)
  deriving DecidableEq, Repr

/-- What is done before the job itself: the records of it, and the severity from
which they are shown. -/
structure Preparation where
  threshold : Nat
  records : List LogRecord
  job : Except StartFault Job

/-- The name of the chosen notation in a record; brackets with nothing in them if
it is left blank. -/
def formName (form : Option Notation) : String := form.elim "[]" Notation.name

def batchRecord (form : Option Notation) (expressions : List String) : LogRecord :=
  ⟨.program, .info,
    "Batch mode: " ++ toString expressions.length ++ " expressions, notation=" ++ formName form⟩

def interactiveRecord (form : Option Notation) : LogRecord :=
  ⟨.program, .info, "Interactive mode, notation=" ++ formName form⟩

/-- Expressions or a file of them make a batch, anything else a conversation. The
expressions of the command line come before those of the file. Either is announced
before the notation is looked at. -/
def chooseJob (o : Options) (loaded : List String) : LogRecord × Except StartFault Job :=
  let expressions := o.expressions ++ loaded
  let inForm (job : Notation → Job) : Except StartFault Job :=
    match o.form with
    | some n => .ok (job n)
    | none => .error .blankNotation
  if expressions.isEmpty && o.source?.isNone then
    (interactiveRecord o.form, inForm .interactive)
  else (batchRecord o.form expressions, inForm (.batch · expressions o.target?))

/-- The severity that a threshold stands for, in whatever case it is written. -/
def chosenThreshold (o : Options) : Except StartFault Nat :=
  match o.threshold with
  | none => .error .blankThreshold
  | some name =>
    match thresholdOfName? (upperCase name) with
    | some threshold => .ok threshold
    | none => .error (.unknownThreshold (upperCase name))

/-- Checks the threshold and the settings, then loads the file if one is asked
for. -/
def prepare (s : Settings) (o : Options) (storage : Storage) : Preparation :=
  match chosenThreshold o with
  | .error fault => ⟨0, [], .error fault⟩
  | .ok threshold =>
    match s.defect?, o.source? with
    | some defect, _ => ⟨threshold, [], .error (.settings defect)⟩
    | none, none =>
      let (record, job) := chooseJob o []
      ⟨threshold, [record], job⟩
    | none, some name =>
      let loaded := Source.expressions s "" name (storage name)
      let records := Source.records name loaded
      match loaded with
      | .error fault => ⟨threshold, records, .error (.source fault)⟩
      | .ok expressions =>
        let (record, job) := chooseJob o expressions
        ⟨threshold, records ++ [record], job⟩

inductive Ending where
  | help
  | refused (fault : UsageFault)
  | stopped (fault : StartFault)
  /-- The results are printed but not saved. -/
  | unsaved (fault : SaveFault)
  /-- With a status for the caller: the number of failures of a batch. -/
  | finished (status : Nat)
  deriving DecidableEq, Repr

structure Conclusion where
  ending : Ending
  output : String
  /-- All records; only those from the threshold on are shown. -/
  records : List LogRecord
  threshold : Nat
  saved : Option (String × String)

/-- A prompt is written only to a terminal. -/
def promptFor (s : Settings) (terminal : Bool) : String := if terminal then s.prompt else ""

def run (power : Float → Float → Float) (library : TableLibrary) (s : Settings)
    (arguments : List String) (input : String) (terminal : Bool) (storage : Storage) :
    Conclusion :=
  match Request.ofArguments s arguments with
  | .help => ⟨.help, "", [], 0, none⟩
  | .refused fault => ⟨.refused fault, "", [], 0, none⟩
  | .start options =>
    let preparation := prepare s options storage
    match preparation.job with
    | .error fault =>
      ⟨.stopped fault, "", preparation.records, preparation.threshold, none⟩
    | .ok (.batch n expressions path) =>
      let report := Batch.run power library s n expressions path storage
      ⟨report.fault.elim (.finished report.failures) .unsaved, report.output,
        preparation.records ++ report.records, preparation.threshold, report.saved⟩
    | .ok (.interactive n) =>
      let transcript := Interactive.run power s n (promptFor s terminal) input .initial
      ⟨.finished 0, transcript.output, preparation.records ++ transcript.records,
        preparation.threshold, none⟩

def usageLine (fault : UsageFault) : String := "infixcalc: error: " ++ fault.message

end InfixCalculator.CommandLine
