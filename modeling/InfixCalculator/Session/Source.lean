import InfixCalculator.Log
import InfixCalculator.Settings
import InfixCalculator.Storage.Occupant
import InfixCalculator.Table.Sheet
import InfixCalculator.Text.Blank
import InfixCalculator.Text.Line

/-!
Expressions from a file: a column of a table, or the lines of a text. Blank ones
are left out.
-/
namespace InfixCalculator

inductive SourceFault where
  | missingFile (name : String)
  | directory (name : String)
  | notUnicode
  | unreadableTable (fault : SheetFault)
  | missingColumn (column name : String)
  deriving DecidableEq, Repr

namespace SourceFault

def message : SourceFault → String
  | .missingFile name => "[Errno 2] No such file or directory: " ++ quoted name
  | .directory name => directoryMessage name
  | .notUnicode => "The file is not encoded in UTF-8"
  | .unreadableTable .empty => "The table has no header"
  | .unreadableTable .unclosedQuote => "The table ends inside a quoted cell"
  | .unreadableTable .tooManyCells => "The table has a row with too many cells"
  | .missingColumn column name =>
    "Expression column '" ++ column ++ "' not found in " ++ name ++ "."

end SourceFault

namespace Source

/-- The name of a table; any other file is a text. -/
def isTable (name : String) : Bool := name.endsWith ".csv"

def pieces (column name text : String) : Except SourceFault (List String) :=
  if isTable name then
    match Sheet.ofText text.toList with
    | .error fault => .error (.unreadableTable fault)
    | .ok sheet =>
      match sheet.column? column with
      | some cells => .ok cells
      | none => .error (.missingColumn column name)
  else .ok ((textLines text.toList).map String.ofList)

def withoutBlanks (expressions : List String) : List String :=
  expressions.filter fun expression => !isBlankText expression.toList

theorem fromUTF8?_toUTF8 (text : String) : String.fromUTF8? text.toUTF8 = some text :=
  dif_pos text.isValidUTF8

/-- The expressions of a file, given what stands under its name. The usual column
is meant when none is named. -/
def expressions (s : Settings) (column name : String) (found : Option Occupant) :
    Except SourceFault (List String) :=
  match found with
  | none => .error (.missingFile name)
  | some .directory => .error (.directory name)
  | some (.file bytes) =>
    match String.fromUTF8? bytes with
    | none => .error .notUnicode
    | some text =>
      let column := if column.isEmpty then s.columns.expression else column
      (pieces column name text).map withoutBlanks

def loadingRecord (name : String) : LogRecord :=
  ⟨.batch, .info, "Loading expressions from " ++ name⟩

def loadedRecord (expressions : List String) : LogRecord :=
  ⟨.batch, .info, "Loaded " ++ toString expressions.length ++ " expressions"⟩

/-- The records of a loading, whether it succeeded or not. -/
def records (name : String) : Except SourceFault (List String) → List LogRecord
  | .ok expressions => [loadingRecord name, loadedRecord expressions]
  | .error _ => [loadingRecord name]

end Source

end InfixCalculator
