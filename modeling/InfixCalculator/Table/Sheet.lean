import InfixCalculator.Table.Csv

/-!
A table with named columns. The first row gives the names; the first row below it
fixes the width. Columns without a name on the left only label the rows.
-/
namespace InfixCalculator

structure Sheet where
  names : List String
  /-- The columns before the named ones. -/
  labels : Nat
  rows : List (List String)
  deriving DecidableEq, Repr

inductive SheetFault where
  | empty
  | unclosedQuote
  | tooManyCells
  deriving DecidableEq, Repr

namespace Sheet

/-- The least number from `start` on that makes a new name out of an old one. -/
def freshNumber (taken : List String) (name : String) (start : Nat) : Nat :=
  let numbers := (List.range (taken.length + 1)).map (start + ·)
  (numbers.find? fun k => !taken.contains (name ++ "." ++ toString k)).getD start

/-- Column names on their way to being distinct, and how often each was asked
for. -/
structure Naming where
  names : List String
  uses : List (String × Nat)

def Naming.count (naming : Naming) (name : String) : Nat :=
  (naming.uses.lookup name).getD 0

/-- Gives a column its name, with a number if it was given before. -/
def Naming.settle (naming : Naming) (column : Nat) : Naming :=
  let name := naming.names.getD column ""
  let count := naming.count name
  if count = 0 then { naming with uses := (name, 1) :: naming.uses }
  else
    let number := freshNumber naming.names name count
    let fresh := name ++ "." ++ toString number
    { names := naming.names.set column fresh
      uses := (fresh, 1) :: (name, number + 1) :: naming.uses }

/-- Distinct column names. An empty name becomes the place of its column, and
gives way to the names that were written. -/
def distinctNames (header : List String) : List String :=
  let columns := header.zipIdx
  let filled := columns.map fun (name, i) =>
    if name.isEmpty then "Unnamed: " ++ toString i else name
  let written := columns.filter fun (name, _) => !name.isEmpty
  let unwritten := columns.filter fun (name, _) => name.isEmpty
  let order := (written ++ unwritten).map (·.2)
  (order.foldl Naming.settle ⟨filled, []⟩).names

/-- A row may have more cells than the header only if no row has more than the
first; shorter rows are filled up with empty cells. -/
def ofRows : List (List String) → Except SheetFault Sheet
  | [] => .error .empty
  | header :: rows =>
    let width := max header.length ((rows.head?.map List.length).getD 0)
    if rows.any (width < ·.length) then .error .tooManyCells
    else .ok
      { names := distinctNames header
        labels := width - header.length
        rows := rows.map fun row => row ++ List.replicate (width - row.length) "" }

/-- A text that may begin with a byte order mark. -/
def ofText (text : List Char) : Except SheetFault Sheet :=
  let body := if text.head? = some '\ufeff' then text.tail else text
  match Csv.read? body with
  | none => .error .unclosedQuote
  | some rows => ofRows (rows.map (·.map String.ofList))

def column? (sheet : Sheet) (name : String) : Option (List String) :=
  (sheet.names.idxOf? name).map fun i => sheet.rows.map (·.getD (sheet.labels + i) "")

end Sheet

end InfixCalculator
