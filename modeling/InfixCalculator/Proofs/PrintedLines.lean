import InfixCalculator.Platform
import InfixCalculator.CommandLine.Program
import InfixCalculator.Proofs.Wording

/-!
The lines that a batch prints. Every expression has an entry, which ends with a line feed
and is marked if the expression failed. An entry is one line unless the symbol that a fault
quotes has line feeds of its own.
-/
namespace InfixCalculator

/-- What a batch prints about an expression, without the line feed at its end. -/
def Batch.entry (power : Float → Float → Float) (s : Settings) (n : Notation) (text : String) :
    String :=
  match InfixCalculator.evaluate power n text with
  | .ok result => n.shown result
  | .error fault => s.failureMark ++ " " ++ fault.message

/-- A line that starts with the failure marker and a space. -/
def Settings.marks (s : Settings) (line : List Char) : Bool :=
  (s.failureMark ++ " ").toList.isPrefixOf line

/-- The text has a fault that quotes a symbol with a line feed in it. -/
def QuotesLineFeed (power : Float → Float → Float) (n : Notation) (text : String) : Prop :=
  ∃ symbol, evaluate power n text = .error (.unknownSymbol symbol) ∧ '\n' ∈ symbol.toList

variable (power : Float → Float → Float) {n : Notation}

theorem answerLine_evaluate (s : Settings) (text : String) :
    Interactive.answerLine s n (evaluate power n text) = Batch.entry power s n text ++ "\n" := by
  unfold Batch.entry
  cases evaluate power n text <;> rfl

/-- No answer starts with the marker, and every message does. -/
theorem marks_entry (text : String) :
    Settings.standard.marks (Batch.entry power .standard n text).toList =
      isFailure (evaluate power n text) := by
  unfold Batch.entry
  cases h : evaluate power n text with
  | ok result =>
    have hmark : "! ".toList.isPrefixOf (n.shown result).toList = false := by
      rw [Bool.eq_false_iff, ne_eq, List.isPrefixOf_iff_prefix]
      intro hfirst
      have hmem : '!' ∈ (n.shown result).toList := hfirst.subset (by decide +kernel)
      exact absurd (answerChars_of_answer h _ hmem) (by decide)
    exact hmark
  | error fault =>
    have hmark : "! ".toList.isPrefixOf ("! " ++ fault.message).toList := by
      rw [List.isPrefixOf_iff_prefix, String.toList_append]
      exact List.prefix_append _ _
    exact hmark

/-- Only the symbol that a fault quotes brings a line feed into an entry. -/
theorem lineFeed_mem_entry (text : String) :
    '\n' ∈ (Batch.entry power .standard n text).toList ↔ QuotesLineFeed power n text := by
  have hunprinted : ¬isPrinted '\n' := by decide
  unfold Batch.entry QuotesLineFeed
  cases h : evaluate power n text with
  | ok result =>
    have hfree : '\n' ∉ (n.shown result).toList := fun hmem =>
      hunprinted (printed_of_answer h _ hmem)
    simpa using hfree
  | error fault =>
    have hmark : '\n' ∉ (Settings.standard.failureMark ++ " ").toList := by decide +kernel
    rw [String.toList_append, List.mem_append, or_iff_right hmark]
    constructor
    · intro hmem
      obtain ⟨detail, hdetail, hfeed⟩ := (Fault.message_chars hmem).resolve_left hunprinted
      rcases evaluate_detail h detail hdetail with hprinted | ⟨rfl, -⟩
      · exact absurd (hprinted _ hfeed) hunprinted
      · exact ⟨detail, rfl, hfeed⟩
    · rintro ⟨symbol, hfault, hfeed⟩
      obtain rfl : fault = .unknownSymbol symbol := by injection hfault
      unfold Fault.message
      simp only [String.toList_append, List.mem_append]
      exact .inl (.inr hfeed)

instance (text : String) : Decidable (QuotesLineFeed power n text) :=
  decidable_of_iff _ (lineFeed_mem_entry power text)

/-- What a batch prints is an entry for each expression, in order. -/
theorem Batch.output_entries (library : TableLibrary) (s : Settings) (texts : List String)
    (path : Option String) (storage : Storage) :
    (Batch.run power library s n texts path storage).output =
      String.join ((texts.map (Batch.entry power s n)).map (· ++ "\n")) := by
  simp [Batch.output_run, answerLine_evaluate, Function.comp_def]

/-- It counts the entries that are marked. -/
theorem Batch.failures_entries (library : TableLibrary) (texts : List String)
    (path : Option String) (storage : Storage) :
    (Batch.run power library .standard n texts path storage).failures =
      ((texts.map (Batch.entry power .standard n)).map String.toList).countP
        Settings.standard.marks := by
  simp [Batch.failures_run, List.countP_map, Function.comp_def, marks_entry]

namespace CommandLine

/-- A command line that makes a batch prints what the batch prints; it ends with a status
only if nothing is left unsaved, and the status is the number of failures. -/
theorem run_batch (library : TableLibrary) {arguments : List String} {options : Options}
    {storage : Storage} {texts : List String} {path : Option String}
    (hstart : Request.ofArguments .standard arguments = .start options)
    (hjob : (prepare .standard options storage).job = .ok (.batch n texts path))
    (input : String) (terminal : Bool) :
    let report := Batch.run power library .standard n texts path storage
    let conclusion := run power library .standard arguments input terminal storage
    conclusion.output = report.output ∧
      ∀ status, conclusion.ending = .finished status ↔
        report.fault = none ∧ status = report.failures := by
  simp only [run, hstart, hjob]
  refine ⟨trivial, fun status => ?_⟩
  cases (Batch.run power library .standard n texts path storage).fault with
  | none => simp [eq_comm]
  | some fault => simp

end CommandLine

/-- A batch prints an entry for each expression, in order and each ended by a line feed; an
entry is marked if and only if its expression failed, and the failures are counted by their
marks. The printed lines are these entries exactly if no fault quotes a line feed, and then
the failures are the marked lines. A command line that makes the batch prints the same, and
the status that it finishes with is the number of failures. -/
theorem batch_prints_entries (power : Float → Float → Float) (library : TableLibrary)
    (n : Notation) (texts : List String) (path : Option String) (storage : Storage) :
    let report := Batch.run power library .standard n texts path storage
    let entries := texts.map (Batch.entry power .standard n)
    let lines := inputLines report.output.toList
    report.output = String.join (entries.map (· ++ "\n")) ∧
    (∀ text, Settings.standard.marks (Batch.entry power .standard n text).toList =
      isFailure (evaluate power n text)) ∧
    report.failures = (entries.map String.toList).countP Settings.standard.marks ∧
    (lines = entries.map String.toList ↔ ∀ text ∈ texts, ¬QuotesLineFeed power n text) ∧
    ((∀ text ∈ texts, ¬QuotesLineFeed power n text) →
      report.failures = lines.countP Settings.standard.marks) ∧
    ∀ arguments options input terminal,
      CommandLine.Request.ofArguments .standard arguments = .start options →
      (CommandLine.prepare .standard options storage).job = .ok (.batch n texts path) →
      let conclusion := CommandLine.run power library .standard arguments input terminal storage
      conclusion.output = report.output ∧
        ∀ status, conclusion.ending = .finished status ↔
          report.fault = none ∧ status = report.failures := by
  intro report entries lines
  have houtput : report.output = String.join (entries.map (· ++ "\n")) :=
    Batch.output_entries power library .standard texts path storage
  have hfailures : report.failures =
      (entries.map String.toList).countP Settings.standard.marks :=
    Batch.failures_entries power library texts path storage
  have hended : report.output.toList = (entries.map String.toList).flatMap (· ++ ['\n']) := by
    rw [houtput]
    exact toList_join_ended entries "\n"
  have hlines : lines = entries.map String.toList ↔ ∀ text ∈ texts, ¬QuotesLineFeed power n text := by
    calc lines = entries.map String.toList
        ↔ ∀ text ∈ entries.map String.toList, '\n' ∉ text := by
          rw [← inputLines_join_iff, ← hended]
      _ ↔ ∀ text ∈ texts, ¬QuotesLineFeed power n text := by
          simp [entries, lineFeed_mem_entry]
  refine ⟨houtput, marks_entry power, hfailures, hlines, fun hfree => ?_,
    fun arguments options input terminal hstart hjob =>
      CommandLine.run_batch power library hstart hjob input terminal⟩
  rw [hlines.mpr hfree]
  exact hfailures

/-- An answer, a symbol with a tab in it and a stray parenthesis, asked for on a command
line. -/
theorem batch_prints_entries_command :
    let texts := ["1/3", "x\ty", "2)"]
    let arguments := ["--notation", "postfix"] ++ texts
    let options : CommandLine.Options := ⟨texts, some .operatorLast, "", "", some "WARNING"⟩
    let report := Batch.run Platform.power Platform.tables .standard .operatorLast texts none .empty
    let conclusion :=
      CommandLine.run Platform.power Platform.tables .standard arguments "" false .empty
    (∀ text ∈ texts, ¬QuotesLineFeed Platform.power .operatorLast text) ∧
    CommandLine.Request.ofArguments .standard arguments = .start options ∧
    (CommandLine.prepare .standard options .empty).job = .ok (.batch .operatorLast texts none) ∧
    report.failures = (inputLines report.output.toList).countP Settings.standard.marks ∧
    conclusion.output = report.output ∧ conclusion.ending = .finished report.failures := by
  intro texts arguments options report conclusion
  have hfree : ∀ text ∈ texts, ¬QuotesLineFeed Platform.power .operatorLast text := by
    decide +kernel
  have hstart : CommandLine.Request.ofArguments .standard arguments = .start options := by
    decide +kernel
  have hjob : (CommandLine.prepare .standard options .empty).job =
      .ok (.batch .operatorLast texts none) := by decide +kernel
  obtain ⟨-, -, -, -, hcount, hcommand⟩ :=
    batch_prints_entries Platform.power Platform.tables .operatorLast texts none .empty
  obtain ⟨houtput, hending⟩ := hcommand arguments options "" false hstart hjob
  exact ⟨hfree, hstart, hjob, hcount hfree, houtput, (hending _).mpr ⟨rfl, rfl⟩⟩

/-- One expression, one failure and two marked lines: the symbol has a line feed with the
marker behind it. -/
theorem batch_breaks_line :
    let report :=
      Batch.run Platform.power Platform.tables .standard .value ["a\n! b"] none .empty
    let lines := inputLines report.output.toList
    report.output = "! Unknown symbol: 'a\n! b'\n" ∧ report.failures = 1 ∧
      lines.length = 2 ∧ lines.countP Settings.standard.marks = 2 := by
  decide +kernel

end InfixCalculator
