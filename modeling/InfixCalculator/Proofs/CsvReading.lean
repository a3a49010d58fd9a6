import Mathlib.Data.List.Basic
import InfixCalculator.Table.Csv

/-!
A written table reads back to the cells it was written from. Two kinds of row are
excluded: a row of less than two cells, which may be written as a blank line that the
reader passes over, and a row with a carriage return, which ends a line when it is
read but asks for no quotes when it is written.
-/
namespace InfixCalculator.Csv

structure Faithful (row : List (List Char)) : Prop where
  wide : 2 ≤ row.length
  noReturn : ∀ cell ∈ row, '\r' ∉ cell

/-- Characters that mean themselves wherever they stand. -/
def Bare (cell : List Char) : Prop := ∀ c ∈ cell, c ≠ ',' ∧ c ≠ '"' ∧ c ≠ '\n' ∧ c ≠ '\r'

/-- A cell that is written without quotes has nothing in it that a reader stops at. -/
theorem bare_of_unquoted {cell : List Char} (h : needsQuotes cell = false)
    (noReturn : '\r' ∉ cell) : Bare cell := by
  intro c hc
  have hc' := List.any_eq_false.mp h c hc
  simp only [Bool.or_eq_true, beq_iff_eq, not_or] at hc'
  exact ⟨hc'.1.1, hc'.1.2, hc'.2, fun heq => noReturn (heq ▸ hc)⟩

namespace Reader

variable {rows : List (List (List Char))} {cells : List (List Char)} {cell : List Char}

/-! The characters of a cell -/

theorem foldl_plain {text : List Char} (h : Bare text) :
    text.foldl step ⟨rows, cells, cell, .plain⟩ =
      ⟨rows, cells, text.reverse ++ cell, .plain⟩ := by
  induction text generalizing cell with
  | nil => rfl
  | cons c rest ih =>
    obtain ⟨hcomma, -, hfeed, hreturn⟩ := h c (by simp)
    have hstep : step ⟨rows, cells, cell, .plain⟩ c = ⟨rows, cells, c :: cell, .plain⟩ := by
      simp [step, stepPlain, push, hcomma, hfeed, hreturn]
    rw [List.foldl_cons, hstep, ih fun d hd => h d (by simp [hd])]
    simp

/-- Between quotes every character counts, and a double quote counts once for two. -/
theorem foldl_quoted (text : List Char) :
    (doubleQuotes text).foldl step ⟨rows, cells, cell, .quoted⟩ =
      ⟨rows, cells, text.reverse ++ cell, .quoted⟩ := by
  induction text generalizing cell with
  | nil => rfl
  | cons c rest ih =>
    have hstep : (if c = '"' then ['"', '"'] else [c]).foldl step ⟨rows, cells, cell, .quoted⟩ =
        ⟨rows, cells, c :: cell, .quoted⟩ := by
      by_cases hquote : c = '"'
      · subst hquote
        rfl
      · simp [step, push, hquote]
    rw [doubleQuotes, List.flatMap_cons, List.foldl_append, hstep, ← doubleQuotes, ih]
    simp

/-- At the start of a row blanks wait until it is clear that the line holds more. -/
theorem foldl_rowStart (rows : List (List (List Char))) {text : List Char} (h : Bare text)
    (blanks : List Char) :
    text.foldl step ⟨rows, [], [], .rowStart blanks⟩ =
        ⟨rows, [], [], .rowStart (text.reverse ++ blanks)⟩ ∨
      text.foldl step ⟨rows, [], [], .rowStart blanks⟩ =
        ⟨rows, [], text.reverse ++ blanks, .plain⟩ := by
  induction text generalizing blanks with
  | nil => exact .inl rfl
  | cons c rest ih =>
    obtain ⟨hcomma, hquote, hfeed, hreturn⟩ := h c (by simp)
    have hrest : Bare rest := fun d hd => h d (by simp [hd])
    by_cases hblank : c = ' ' ∨ c = '\t'
    · have hstep : step ⟨rows, [], [], .rowStart blanks⟩ c =
          ⟨rows, [], [], .rowStart (c :: blanks)⟩ := by
        simp [step, hblank, hfeed, hreturn]
      simpa [hstep] using ih hrest (c :: blanks)
    · have hstep : step ⟨rows, [], [], .rowStart blanks⟩ c =
          ⟨rows, [], c :: blanks, .plain⟩ := by
        cases blanks <;>
          simp [step, stepCellStart, stepPlain, push, hblank, hcomma, hquote, hfeed, hreturn]
      exact .inr (by simp [hstep, foldl_plain hrest])

/-! Cells and rows -/

/-- The reader stands behind a cell: a comma ends the cell, a line feed the row. -/
structure Behind (r : Reader) (rows : List (List (List Char))) (cells : List (List Char)) :
    Prop where
  comma : step r ',' = ⟨rows, cells, [], .cellStart⟩
  feed : step r '\n' = ⟨cells.reverse :: rows, [], [], .rowStart []⟩

theorem behind_quotes (text : List Char) :
    Behind ⟨rows, cells, text.reverse, .afterQuote⟩ rows (text :: cells) := by
  constructor <;> simp [step, stepPlain, endRow, endCell]

theorem behind_plain (text : List Char) :
    Behind ⟨rows, cells, text.reverse, .plain⟩ rows (text :: cells) := by
  constructor <;> simp [step, stepPlain, endRow, endCell]

/-- A cell in quotes is read back to its end, with each doubled quote read as one. -/
theorem foldl_quotes (text : List Char) (r : Reader)
    (h : step r '"' = ⟨rows, cells, [], .quoted⟩) :
    Behind (('"' :: doubleQuotes text ++ ['"']).foldl step r) rows (text :: cells) := by
  have hquoted : ('"' :: doubleQuotes text ++ ['"']).foldl step r =
      ⟨rows, cells, text.reverse, .afterQuote⟩ := by
    rw [List.cons_append, List.foldl_cons, h, List.foldl_append, foldl_quoted]
    simp [step]
  rw [hquoted]
  exact behind_quotes text

/-- A cell that is not the first of its row. -/
theorem foldl_writeCell (rows : List (List (List Char))) (cells : List (List Char))
    {text : List Char} (noReturn : '\r' ∉ text) :
    Behind ((writeCell text).foldl step ⟨rows, cells, [], .cellStart⟩) rows (text :: cells) := by
  unfold writeCell
  split
  · exact foldl_quotes text _ rfl
  · rename_i hneeds
    have hbare := bare_of_unquoted (Bool.eq_false_iff.mpr hneeds) noReturn
    cases text with
    | nil => constructor <;> rfl
    | cons c rest =>
      obtain ⟨hcomma, hquote, hfeed, hreturn⟩ := hbare c (by simp)
      have hstep : step ⟨rows, cells, [], .cellStart⟩ c = ⟨rows, cells, [c], .plain⟩ := by
        simp [step, stepCellStart, stepPlain, push, hcomma, hquote, hfeed, hreturn]
      rw [List.foldl_cons, hstep, foldl_plain fun d hd => hbare d (by simp [hd]),
        ← List.reverse_cons]
      exact behind_plain _

/-- The first cell of a row. If it is blank, only a comma shows that it was a cell. -/
theorem foldl_writeCell_first (rows : List (List (List Char))) {text : List Char}
    (noReturn : '\r' ∉ text) :
    step ((writeCell text).foldl step ⟨rows, [], [], .rowStart []⟩) ',' =
      ⟨rows, [text], [], .cellStart⟩ := by
  unfold writeCell
  split
  · exact (foldl_quotes text _ rfl).comma
  · rename_i hneeds
    have hbare := bare_of_unquoted (Bool.eq_false_iff.mpr hneeds) noReturn
    rcases foldl_rowStart rows hbare [] with hr | hr
    · rw [hr, List.append_nil]
      cases hback : text.reverse with
      | nil =>
        obtain rfl : text = [] := List.reverse_eq_nil_iff.mp hback
        rfl
      | cons c rest =>
        have htext : (c :: rest).reverse = text := by rw [← hback, List.reverse_reverse]
        simp [step, stepPlain, endCell, ← htext]
    · rw [hr, List.append_nil]
      exact (behind_plain text).comma

/-- The cells of a row behind its first comma, and the end of the row. -/
theorem foldl_cells (rows : List (List (List Char))) (cells : List (List Char))
    {text : List Char} {more : List (List Char)}
    (noReturn : ∀ cell ∈ text :: more, '\r' ∉ cell) :
    ([','].intercalate ((text :: more).map writeCell) ++ ['\n']).foldl step
        ⟨rows, cells, [], .cellStart⟩ =
      ⟨(cells.reverse ++ text :: more) :: rows, [], [], .rowStart []⟩ := by
  induction more generalizing text cells with
  | nil =>
    have hcell := foldl_writeCell rows cells (noReturn text (by simp))
    simp [List.intercalate, List.foldl_append, hcell.feed]
  | cons next more ih =>
    have hcell := foldl_writeCell rows cells (noReturn text (by simp))
    have hnext : ∀ cell ∈ next :: more, '\r' ∉ cell := fun c hc =>
      noReturn c (List.mem_cons_of_mem text hc)
    have hrest := ih (text :: cells) hnext
    simp only [List.map_cons, List.intercalate_cons_cons, List.append_assoc, List.foldl_append,
      List.foldl_cons, List.foldl_nil, hcell.comma] at hrest ⊢
    simpa using hrest

theorem foldl_writeRow {row : List (List Char)} (h : Faithful row) :
    (writeRow row).foldl step ⟨rows, [], [], .rowStart []⟩ =
      ⟨row :: rows, [], [], .rowStart []⟩ := by
  obtain ⟨wide, noReturn⟩ := h
  match row, wide with
  | first :: text :: more, _ =>
    have hfirst := foldl_writeCell_first rows (noReturn first (by simp))
    have hcells : ∀ cell ∈ text :: more, '\r' ∉ cell := fun c hc =>
      noReturn c (List.mem_cons_of_mem first hc)
    have hrest := foldl_cells rows [first] hcells
    simp only [writeRow, List.map_cons, List.intercalate_cons_cons, List.append_assoc,
      List.foldl_append, List.foldl_cons, List.foldl_nil, hfirst] at hrest ⊢
    simpa using hrest

/-- Written rows are read one after another, the last one first in what the reader holds. -/
theorem foldl_write {table : List (List (List Char))} (h : ∀ row ∈ table, Faithful row) :
    (write table).foldl step ⟨rows, [], [], .rowStart []⟩ =
      ⟨table.reverse ++ rows, [], [], .rowStart []⟩ := by
  induction table generalizing rows with
  | nil => rfl
  | cons row rest ih =>
    rw [write, List.flatMap_cons, List.foldl_append, foldl_writeRow (h row (by simp)), ← write,
      ih fun r hr => h r (by simp [hr])]
    simp

end Reader

/-- Reading is a left inverse of writing. -/
theorem read?_write {table : List (List (List Char))} (h : ∀ row ∈ table, Faithful row) :
    read? (write table) = some table := by
  rw [read?, Reader.initial, Reader.foldl_write h]
  simp [Reader.finish]

/-- A comma, quotes and a line feed in cells, an empty cell and one of blanks. -/
example : read? (write [["a,b".toList, "say \"x\"".toList], [" ".toList, []],
    ["two\nlines".toList, "1".toList]]) =
    some [["a,b".toList, "say \"x\"".toList], [" ".toList, []],
      ["two\nlines".toList, "1".toList]] := by decide

end InfixCalculator.Csv
