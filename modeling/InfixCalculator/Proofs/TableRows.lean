import InfixCalculator.Session.Batch
import InfixCalculator.Session.Interactive

/-!
Rows of results as a library of tables keeps them. Whatever it puts in the place of
nothing, a row is printed as a conversation answers its expression, it counts as a
failure if that answer is a fault, and it is saved with nothing in the place of nothing.
-/
namespace InfixCalculator

namespace Notation

variable {n : Notation} (x : n.Result)

theorem cell_ne_nothing : n.cell x ≠ .nothing := by
  cases n <;> exact nofun

@[simp] theorem shown_cell : (n.cell x).shown = n.shown x := by
  cases n <;> rfl

/-- A result is saved unless it is no number. -/
theorem saved_cell : (n.cell x).saved = if n.isUndefined x then "" else n.shown x := by
  cases n <;> rfl

end Notation

namespace Batch

variable (library : TableLibrary) {n : Notation}

/-- A row as it is kept among others. -/
def Row.kept (rows : List Row) (row : Row) : Row where
  expression := library.keepCell (rows.map (·.expression)) row.expression
  result := library.keepCell (rows.map (·.result)) row.result
  error := library.keepCell (rows.map (·.error)) row.error

/-- The columns of a table, read row by row, are the rows that it was made of. -/
theorem Frame.rows_ofRows (rows : List Row) :
    (Frame.ofRows library rows).rows = rows.map (Row.kept library rows) := by
  simp only [Frame.rows, Frame.ofRows, TableLibrary.keep, List.map_map, List.zip_map']
  rfl

/-- The count of a table is that of the rows with an error, though empty cells have been
filled up. -/
theorem Frame.failureCount_ofRows (rows : List Row) :
    (Frame.ofRows library rows).failureCount = rows.countP fun row => !row.error.isMissing := by
  simp [Frame.failureCount, Frame.ofRows, TableLibrary.keep, List.countP_map, Function.comp_def]

/-- A row is saved alike before it is put in its table and after. -/
theorem Row.saved_kept (rows : List Row) (row : Row) :
    (row.kept library rows).saved = row.saved := by
  simp [Row.saved, Row.kept]

/-! The row of an answer -/

/-- The error cell of a row is empty just when the text has an answer. -/
theorem Row.isMissing_error (text : String) (answer : Except Fault n.Result) :
    (Row.ofAnswer n text answer).error.isMissing = !isFailure answer := by
  cases answer <;> rfl

/-- The row of an answer is printed as the answer to a line is. -/
theorem formatRow_kept (s : Settings) (rows : List Row) (text : String)
    (answer : Except Fault n.Result) :
    formatRow s ((Row.ofAnswer n text answer).kept library rows) ++ "\n" =
      Interactive.answerLine s n answer := by
  have hmissing : ((Row.ofAnswer n text answer).kept library rows).error.isMissing =
      !isFailure answer := by
    rw [Row.kept, TableLibrary.isMissing_keepCell, Row.isMissing_error]
  cases answer with
  | ok x =>
    have hresult : ((Row.ofAnswer n text (.ok x)).kept library rows).result = n.cell x :=
      library.keepCell_of_ne (Notation.cell_ne_nothing x) _
    rw [formatRow, hmissing, hresult, Notation.shown_cell]
    simp [isFailure, Interactive.answerLine]
  | error fault =>
    have herror : ((Row.ofAnswer n text (.error fault)).kept library rows).error =
        .text fault.message := rfl
    rw [formatRow, hmissing, herror]
    simp [isFailure, Interactive.answerLine, Interactive.formatFailure, Cell.shown]

end Batch

end InfixCalculator
