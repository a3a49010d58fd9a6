/-!
Tables as text: a row a line, cells between commas. A cell that holds a comma, a
double quote or a line feed stands between double quotes, and a double quote
inside it is written twice. The reader is more tolerant than the writer: it also
takes carriage returns as line ends, and passes over lines of blanks.
-/
namespace InfixCalculator.Csv

def needsQuotes (cell : List Char) : Bool :=
  cell.any fun c => c == ',' || c == '"' || c == '\n'

def doubleQuotes (cell : List Char) : List Char :=
  cell.flatMap fun c => if c = '"' then ['"', '"'] else [c]

def writeCell (cell : List Char) : List Char :=
  if needsQuotes cell then '"' :: doubleQuotes cell ++ ['"'] else cell

def writeRow (cells : List (List Char)) : List Char :=
  [','].intercalate (cells.map writeCell) ++ ['\n']

def write (rows : List (List (List Char))) : List Char :=
  rows.flatMap writeRow

/-- Where in a row a reader stands. -/
inductive Place where
  /-- At its start, behind some blanks, the last first. -/
  | rowStart (blanks : List Char)
  | cellStart
  | plain
  | quoted
  | afterQuote
  deriving DecidableEq, Repr

/-- What has been read: rows, the cells of a row that is not finished and the
characters of a cell that is not, each with the last first. -/
structure Reader where
  rows : List (List (List Char))
  cells : List (List Char)
  cell : List Char
  place : Place
  deriving DecidableEq, Repr

namespace Reader

def initial : Reader := ⟨[], [], [], .rowStart []⟩

def push (c : Char) (place : Place) (r : Reader) : Reader :=
  { r with cell := c :: r.cell, place := place }

def endCell (r : Reader) : Reader :=
  { r with cells := r.cell.reverse :: r.cells, cell := [], place := .cellStart }

def endRow (r : Reader) : Reader :=
  let r := r.endCell
  { r with rows := r.cells.reverse :: r.rows, cells := [], place := .rowStart [] }

/-- A character of a cell that is not quoted, or the end of the cell. -/
def stepPlain (r : Reader) (c : Char) : Reader :=
  if c = '\n' ∨ c = '\r' then r.endRow
  else if c = ',' then r.endCell
  else r.push c .plain

/-- Quotes count only at the start of a cell. -/
def stepCellStart (r : Reader) (c : Char) : Reader :=
  if c = '"' then { r with place := .quoted } else r.stepPlain c

def step (r : Reader) (c : Char) : Reader :=
  match r.place with
  | .rowStart blanks =>
    if c = '\n' ∨ c = '\r' then { r with place := .rowStart [] }
    else if c = ' ' ∨ c = '\t' then { r with place := .rowStart (c :: blanks) }
    else if blanks.isEmpty then r.stepCellStart c
    else { r with cell := blanks }.stepPlain c
  | .cellStart => r.stepCellStart c
  | .plain => r.stepPlain c
  | .quoted => if c = '"' then { r with place := .afterQuote } else r.push c .quoted
  | .afterQuote => if c = '"' then r.push c .quoted else r.stepPlain c

/-- The rows at the end of the text; none if it ends between quotes. -/
def finish (r : Reader) : Option (List (List (List Char))) :=
  match r.place with
  | .rowStart _ => some r.rows.reverse
  | .quoted => none
  | _ => some r.endRow.rows.reverse

end Reader

def read? (text : List Char) : Option (List (List (List Char))) :=
  (text.foldl Reader.step .initial).finish

end InfixCalculator.Csv
