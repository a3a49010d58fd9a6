import InfixCalculator.Session.Attempt
import InfixCalculator.Settings
import InfixCalculator.Storage.Occupant
import InfixCalculator.Table.Column
import InfixCalculator.Table.Csv

/-!
A list of expressions, evaluated in order on one calculator. The results make a
table with a row for each expression, which can be printed and saved. Whether an
expression failed is read off the column of errors.
-/
namespace InfixCalculator

def Notation.cell : (n : Notation) → n.Result → Cell
  | .value, x => .number x
  | .operatorFirst, text => .text text
  | .operatorLast, text => .text text

namespace Batch

structure Row where
  expression : Cell
  result : Cell
  error : Cell
  deriving DecidableEq, Repr

/-- The row of an expression: either its result or its error has nothing in it. -/
def Row.ofAnswer (n : Notation) (expression : String) : Except Fault n.Result → Row
  | .ok result => ⟨.text expression, n.cell result, .nothing⟩
  | .error fault => ⟨.text expression, .nothing, .text fault.message⟩

/-- A fault in a row is reported as a warning if it is a mistake with a name, and
as an error otherwise. -/
def faultRecord (expression : String) (fault : Fault) : LogRecord :=
  match fault.kind? with
  | some _ =>
    ⟨.batch, .warning, "Failed to evaluate " ++ quoted expression ++ ": " ++ fault.message⟩
  | none =>
    ⟨.batch, .error, "Malformed expression " ++ quoted expression ++ ": " ++ fault.message⟩

structure Results (n : Notation) where
  rows : List Row
  calculator : Calculator n.Result
  records : List LogRecord

def evaluate (power : Float → Float → Float) (n : Notation) :
    List String → Calculator n.Result → Results n
  | [], c => ⟨[], c, []⟩
  | expression :: rest, c =>
    let tried := attempt power n expression c
    let more := evaluate power n rest tried.calculator
    let faults := match tried.answer with
      | .ok _ => []
      | .error fault => [faultRecord expression fault]
    { rows := .ofAnswer n expression tried.answer :: more.rows
      calculator := more.calculator
      records := tried.records ++ faults ++ more.records }

/-- A table of results, each of its columns as a library keeps it. -/
structure Frame where
  expressions : List Cell
  results : List Cell
  errors : List Cell
  deriving DecidableEq, Repr

namespace Frame

def ofRows (library : TableLibrary) (rows : List Row) : Frame where
  expressions := library.keep (rows.map (·.expression))
  results := library.keep (rows.map (·.result))
  errors := library.keep (rows.map (·.error))

def rows (frame : Frame) : List Row :=
  (frame.expressions.zip (frame.results.zip frame.errors)).map fun (expression, result, error) =>
    ⟨expression, result, error⟩

def failureCount (frame : Frame) : Nat :=
  frame.errors.countP fun error => !error.isMissing

end Frame

/-- What is printed of a row: its error behind the failure marker if it has one, and
otherwise its result. -/
def formatRow (s : Settings) (row : Row) : String :=
  if row.error ≠ .nothing ∧ !row.error.isMissing then s.failureMark ++ " " ++ row.error.shown
  else row.result.shown

def output (s : Settings) (frame : Frame) : String :=
  String.join (frame.rows.map fun row => formatRow s row ++ "\n")

def Row.saved (row : Row) : List String := [row.expression, row.result, row.error].map Cell.saved

/-- The text that is saved: a header and a row for each expression. -/
def table (s : Settings) (frame : Frame) : String :=
  let cells := s.columns.toList :: frame.rows.map Row.saved
  String.ofList (Csv.write (cells.map (·.map String.toList)))

def savingRecord (path : String) : LogRecord :=
  ⟨.batch, .info, "Saving results to " ++ path⟩

def summaryRecord (frame : Frame) : LogRecord :=
  let failures := frame.failureCount
  let total := frame.rows.length
  if failures = 0 then
    ⟨.batch, .info, "All " ++ toString total ++ " expressions evaluated successfully"⟩
  else
    ⟨.batch, .warning, toString failures ++ " of " ++ toString total ++ " expressions failed"⟩

structure Report where
  failures : Nat
  output : String
  /-- The name and the text of a saved file. -/
  saved : Option (String × String)
  /-- Why a file was not saved although it was asked for. -/
  fault : Option SaveFault
  records : List LogRecord
  deriving DecidableEq, Repr

/-- Evaluates, prints and, given a name for the table, saves it. If it cannot be
saved, the summary is left out. -/
def run (power : Float → Float → Float) (library : TableLibrary) (s : Settings) (n : Notation)
    (expressions : List String) (path : Option String) (storage : Storage) : Report :=
  let results := evaluate power n expressions .initial
  let frame := Frame.ofRows library results.rows
  let fault := path.bind storage.saveFault?
  let summary := if fault.isSome then [] else [summaryRecord frame]
  { failures := frame.failureCount
    output := output s frame
    saved := if fault.isSome then none else path.map fun path => (path, table s frame)
    fault := fault
    records := results.records ++ (path.map savingRecord).toList ++ summary }

end Batch

end InfixCalculator
