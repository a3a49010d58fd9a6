import InfixCalculator.Platform
import InfixCalculator.Proofs.CsvReading
import InfixCalculator.Proofs.Wording
import InfixCalculator.Session.Source

/-!
The table that a batch saves says what happened in the batch: read as any table is
read, it has a row for each expression, with the expression itself, its answer and its
fault. Loaded as a list of expressions it gives the batch again.
-/
namespace InfixCalculator

/-- What a saved table is to say of a text: the text, its answer unless that is no
number, and the message of its fault. -/
def savedRow (power : Float → Float → Float) (n : Notation) (text : String) : List String :=
  match evaluate power n text with
  | .ok x => [text, if n.isUndefined x then "" else n.shown x, ""]
  | .error fault => [text, "", fault.message]

section SavedRow

variable {power : Float → Float → Float} {n : Notation} {text : String}

/-- What is saved of a row is its expression, its answer and its error as texts. -/
theorem saved_eq_savedRow (power : Float → Float → Float) (n : Notation) (text : String) :
    (Batch.Row.ofAnswer n text (evaluate power n text)).saved = savedRow power n text := by
  unfold savedRow Batch.Row.saved
  cases evaluate power n text with
  | ok x => exact congrArg (fun result => [text, result, ""]) (Notation.saved_cell x)
  | error fault => rfl

theorem length_savedRow (power : Float → Float → Float) (n : Notation) (text : String) :
    (savedRow power n text).length = 3 := by
  unfold savedRow
  split <;> rfl

theorem savedRow_expression (power : Float → Float → Float) (n : Notation) (text : String) :
    (savedRow power n text).getD 0 "" = text := by
  unfold savedRow
  split <;> rfl

/-- The last cell is empty just when the text has an answer: no message is empty. -/
theorem savedRow_error (power : Float → Float → Float) (n : Notation) (text : String) :
    (savedRow power n text).getD 2 "" ≠ "" ↔ isFailure (evaluate power n text) := by
  unfold savedRow
  cases evaluate power n text with
  | ok x => simp [isFailure]
  | error fault => simpa [isFailure] using fault.message_ne_empty

theorem Printed.noReturn {text : List Char} (h : Printed text) : '\r' ∉ text :=
  fun hmem => absurd (h '\r' hmem) (by decide)

/-- Only the expression can bring a carriage return into a saved row. -/
theorem savedRow_noReturn (h : '\r' ∉ text.toList) :
    ∀ cell ∈ savedRow power n text, '\r' ∉ cell.toList := by
  have hempty : '\r' ∉ "".toList := by simp
  unfold savedRow
  cases hanswer : evaluate power n text with
  | ok x =>
    have hshown := (printed_of_answer hanswer).noReturn
    have hresult : '\r' ∉ (if n.isUndefined x then "" else n.shown x).toList := by
      split
      · exact hempty
      · exact hshown
    simp only [List.forall_mem_cons]
    exact ⟨h, hresult, hempty, nofun⟩
  | error fault =>
    have hmessage : '\r' ∉ fault.message.toList := fun hmem =>
      (message_chars_of_fault hanswer hmem).elim (absurd · (by decide)) h
    simp only [List.forall_mem_cons]
    exact ⟨h, hempty, hmessage, nofun⟩

theorem faithful_savedRow (h : '\r' ∉ text.toList) :
    Csv.Faithful ((savedRow power n text).map String.toList) := by
  constructor
  · simp [length_savedRow]
  · intro cell hcell
    obtain ⟨original, horiginal, rfl⟩ := List.mem_map.mp hcell
    exact savedRow_noReturn h original horiginal

end SavedRow

/-! Sheets -/

namespace Sheet

theorem ofText_of_read {text : List Char} {rows : List (List (List Char))}
    (unmarked : text.head? ≠ some '\ufeff') (h : Csv.read? text = some rows) :
    ofText text = ofRows (rows.map (·.map String.ofList)) := by
  simp only [ofText, unmarked, if_false, h]

/-- Rows as wide as the header are all there is to a sheet. -/
theorem ofRows_of_width {header : List String} {rows : List (List String)}
    (h : ∀ row ∈ rows, row.length = header.length) :
    ofRows (header :: rows) = .ok ⟨distinctNames header, 0, rows⟩ := by
  have hwidth : max header.length ((rows.head?.map List.length).getD 0) = header.length := by
    cases rows with
    | nil => simp
    | cons row rest => simp [h row (by simp)]
  have hfits : rows.any (header.length < ·.length) = false := by
    rw [List.any_eq_false]
    intro row hrow
    simp [h row hrow]
  have hfilled : (rows.map fun row => row ++ List.replicate (header.length - row.length) "") =
      rows := by
    conv_rhs => rw [← List.map_id rows]
    refine List.map_congr_left fun row hrow => ?_
    simp [h row hrow]
  simp only [ofRows, hwidth, hfits, hfilled, Nat.sub_self, Bool.false_eq_true, if_false]

end Sheet

namespace Batch

variable (power : Float → Float → Float) (library : TableLibrary) {n : Notation}

def savedRows (n : Notation) (texts : List String) : List (List String) :=
  ["expression", "result", "error"] :: texts.map (savedRow power n)

/-- The text that is saved of a batch. -/
def savedText (n : Notation) (texts : List String) : String :=
  table .standard (.ofRows library (evaluate power n texts .initial).rows)

theorem savedText_eq_write (texts : List String) :
    (savedText power library n texts).toList =
      Csv.write ((savedRows power n texts).map (·.map String.toList)) := by
  rw [savedText, table, String.toList_ofList, Frame.rows_ofRows, evaluate_initial_rows]
  simp only [savedRows, List.map_map, Function.comp_def, Row.saved_kept, saved_eq_savedRow]
  rfl

/-- A reader of tables gets back the saved rows, line breaks and quotes included. -/
theorem read?_savedText {texts : List String} (h : ∀ text ∈ texts, '\r' ∉ text.toList) :
    Csv.read? (savedText power library n texts).toList =
      some ((savedRows power n texts).map (·.map String.toList)) := by
  rw [savedText_eq_write]
  refine Csv.read?_write fun row hrow => ?_
  simp only [savedRows, List.map_cons, List.map_map, List.mem_cons, List.mem_map] at hrow
  rcases hrow with rfl | ⟨text, htext, rfl⟩
  · exact ⟨by simp, by simp⟩
  · exact faithful_savedRow (h text htext)

/-- The saved file is read as a sheet with the three columns. -/
theorem ofText_savedText {texts : List String} (h : ∀ text ∈ texts, '\r' ∉ text.toList) :
    Sheet.ofText (savedText power library n texts).toList =
      .ok ⟨["expression", "result", "error"], 0, texts.map (savedRow power n)⟩ := by
  have unmarked : (savedText power library n texts).toList.head? ≠ some '\ufeff' := by
    have hlead : (Csv.writeRow (["expression", "result", "error"].map String.toList)).head? =
        some 'e' := by decide +kernel
    rw [savedText_eq_write, savedRows, List.map_cons, Csv.write, List.flatMap_cons,
      List.head?_append, hlead, Option.some_or]
    decide
  have hback : ((savedRows power n texts).map (·.map String.toList)).map (·.map String.ofList) =
      savedRows power n texts := by
    simp [Function.comp_def]
  rw [Sheet.ofText_of_read unmarked (read?_savedText power library h), hback, savedRows,
    Sheet.ofRows_of_width]
  · rfl
  · intro row hrow
    obtain ⟨text, -, rfl⟩ := List.mem_map.mp hrow
    exact length_savedRow power n text

/-- A file with the text of the table is a list of the expressions, without blank ones. -/
theorem expressions_savedText {texts : List String} (h : ∀ text ∈ texts, '\r' ∉ text.toList)
    {file : String} (named : Source.isTable file) :
    Source.expressions .standard "" file
        (some (.file (savedText power library n texts).toUTF8)) =
      .ok (Source.withoutBlanks texts) := by
  have hcolumn : (⟨["expression", "result", "error"], 0, texts.map (savedRow power n)⟩ :
      Sheet).column? "expression" = some texts := by
    have hplace : ["expression", "result", "error"].idxOf? "expression" = some 0 := by
      decide +kernel
    rw [Sheet.column?, hplace, Option.map_some]
    simp [Function.comp_def, - List.getD_eq_getElem?_getD, savedRow_expression]
  have hpieces : Source.pieces "expression" file (savedText power library n texts) =
      .ok texts := by
    simp only [Source.pieces, named, if_true, ofText_savedText power library h, hcolumn]
  have husual : (if "".isEmpty then Settings.standard.columns.expression else "") =
      "expression" := by simp [Settings.standard]
  simp only [Source.expressions, Source.fromUTF8?_toUTF8, husual, hpieces]
  rfl

/-- The failures of a batch are the saved rows with something in their last cell. -/
theorem failures_eq_errors (s : Settings) (texts : List String) (path : Option String)
    (storage : Storage) :
    (run power library s n texts path storage).failures =
      (texts.map (savedRow power n)).countP fun row => row.getD 2 "" ≠ "" := by
  rw [failures_run, List.countP_map, List.countP_map]
  refine List.countP_congr fun text _ => ?_
  simpa using (savedRow_error power n text).symm

end Batch

/-- A saved batch of expressions without carriage returns decodes to the header and a row
for each expression, loads as the expressions that are not blank, and has as many errors
as the batch had failures. -/
theorem saved_table_decodes (power : Float → Float → Float) (library : TableLibrary)
    (n : Notation) (texts : List String) (name : String) (storage : Storage)
    (noReturn : ∀ text ∈ texts, '\r' ∉ text.toList)
    (writable : storage.saveFault? name = none) :
    let report := Batch.run power library .standard n texts (some name) storage
    let rows := texts.map (savedRow power n)
    ∃ table : String, report.saved = some (name, table) ∧
      Csv.read? table.toList =
        some ((["expression", "result", "error"] :: rows).map (·.map String.toList)) ∧
      (∀ file, Source.isTable file →
        Source.expressions .standard "" file (some (.file table.toUTF8)) =
          .ok (Source.withoutBlanks texts)) ∧
      (rows.countP fun row => row.getD 2 "" ≠ "") = report.failures := by
  intro report rows
  refine ⟨Batch.savedText power library n texts, ?_, ?_, ?_, ?_⟩
  · simp [report, Batch.run, writable, Batch.savedText]
  · exact Batch.read?_savedText power library noReturn
  · exact fun file named => Batch.expressions_savedText power library noReturn named
  · exact (Batch.failures_eq_errors power library .standard texts (some name) storage).symm

/-- A comma, quotes and a line feed in the expressions, one that is blank, and a value that
is no number, saved in the working directory. -/
theorem saved_table_decodes_quoted :
    let texts := ["1,5", "say \"2\"\n+ 3", " ", "0/0", "1+2"]
    let storage : Storage := fun name => if name = "." then some .directory else none
    let report :=
      Batch.run Platform.power Platform.tables .standard .value texts (some "out.csv") storage
    let rows := texts.map (savedRow Platform.power .value)
    ((∀ text ∈ texts, '\r' ∉ text.toList) ∧ storage.saveFault? "out.csv" = none) ∧
    ∃ table : String, report.saved = some ("out.csv", table) ∧
      Csv.read? table.toList =
        some ((["expression", "result", "error"] :: rows).map (·.map String.toList)) ∧
      (∀ file, Source.isTable file →
        Source.expressions .standard "" file (some (.file table.toUTF8)) =
          .ok (Source.withoutBlanks texts)) ∧
      (rows.countP fun row => row.getD 2 "" ≠ "") = report.failures := by
  intro texts storage report rows
  have noReturn : ∀ text ∈ texts, '\r' ∉ text.toList := by
    simp [texts]
  have writable : storage.saveFault? "out.csv" = none := by
    decide +kernel
  exact ⟨⟨noReturn, writable⟩, saved_table_decodes Platform.power Platform.tables .value texts
    "out.csv" storage noReturn writable⟩

end InfixCalculator
