import InfixCalculator.Decimal.Layout

/-!
Columns of a table. Nothing counts as missing, and so does what is no number. A column
of numbers has no other place for nothing, so which of the two it keeps is left to the
library of tables.
-/
namespace InfixCalculator

inductive Cell where
  | nothing
  | number (x : Float)
  | text (s : String)
  deriving DecidableEq, Repr

namespace Cell

def isMissing : Cell → Bool
  | nothing => true
  | number x => x.isNaN
  | text _ => false

def shown : Cell → String
  | nothing => "None"
  | number x => answerText x
  | text s => s

def saved (cell : Cell) : String := if cell.isMissing then "" else cell.shown

end Cell

/-- What a library of tables puts in the place of nothing, given the column that it
stands in. -/
structure TableLibrary where
  placeholder : List Cell → Cell
  isMissing_placeholder : ∀ column, (placeholder column).isMissing

namespace TableLibrary

def keepCell (library : TableLibrary) (column : List Cell) (cell : Cell) : Cell :=
  if cell = .nothing then library.placeholder column else cell

def keep (library : TableLibrary) (column : List Cell) : List Cell :=
  column.map (library.keepCell column)

@[simp] theorem isMissing_keepCell (library : TableLibrary) (column : List Cell) (cell : Cell) :
    (library.keepCell column cell).isMissing = cell.isMissing := by
  unfold keepCell
  split
  case isTrue h => rw [h, library.isMissing_placeholder, Cell.isMissing]
  case isFalse => rfl

/-- What is there stays as it is. -/
theorem keepCell_of_ne {cell : Cell} (h : cell ≠ .nothing) (library : TableLibrary)
    (column : List Cell) : library.keepCell column cell = cell := if_neg h

/-- Nothing is saved as any other missing cell is. -/
@[simp] theorem saved_keepCell (library : TableLibrary) (column : List Cell) (cell : Cell) :
    (library.keepCell column cell).saved = cell.saved := by
  by_cases h : cell = .nothing
  · rw [Cell.saved, isMissing_keepCell, Cell.saved, h]
    rfl
  · rw [keepCell_of_ne h]

end TableLibrary

end InfixCalculator
