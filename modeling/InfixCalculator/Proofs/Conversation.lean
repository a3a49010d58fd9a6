import InfixCalculator.Platform
import InfixCalculator.Proofs.Isolation
import InfixCalculator.Proofs.Reading

/-!
A conversation that is given expressions, one on each line, answers them as a batch of
the same expressions does. The conversation takes the blanks off the ends of a line and
the batch does not, but an expression means the same with and without them.
-/
namespace InfixCalculator

/-! Expressions without the blanks at their ends -/

/-- Trimming takes blanks off both ends and nothing else. -/
theorem exists_trim (text : List Char) :
    ∃ front back, (∀ c ∈ front, isBlank c) ∧ (∀ c ∈ back, isBlank c) ∧
      text = front ++ trim text ++ back := by
  let inner := text.dropWhile isBlank
  refine ⟨text.takeWhile isBlank, (inner.reverse.takeWhile isBlank).reverse, fun c hc =>
    List.mem_takeWhile_imp hc, fun c hc => List.mem_takeWhile_imp (List.mem_reverse.mp hc), ?_⟩
  have hinner : inner = trim text ++ (inner.reverse.takeWhile isBlank).reverse := by
    rw [trim, ← List.reverse_append, List.takeWhile_append_dropWhile, List.reverse_reverse]
  rw [List.append_assoc, ← hinner]
  exact List.takeWhile_append_dropWhile.symm

/-- Blanks around a text change nothing in what it says. -/
theorem lexemes_trim (text : List Char) : lexemes (trim text) = lexemes text := by
  obtain ⟨front, back, hfront, hback, htext⟩ := exists_trim text
  calc lexemes (trim text) = lexemes (front ++ trim text) := (lexemes_blank_append hfront _).symm
    _ = lexemes (front ++ trim text ++ back) := (lexemes_append_blank hback _).symm
    _ = lexemes text := by rw [← htext]

theorem trim_eq_nil_iff {text : List Char} : trim text = [] ↔ isBlankText text := by
  constructor
  · intro h
    obtain ⟨front, back, hfront, hback, htext⟩ := exists_trim text
    rw [h, List.append_nil] at htext
    rw [isBlankText_eq_true_iff, htext]
    intro c hc
    exact (List.mem_append.mp hc).elim (hfront c) (hback c)
  · intro h
    exact trim_of_blank (isBlankText_eq_true_iff.mp h)

namespace Calculator

/-- Texts that say the same are evaluated alike. -/
theorem evaluate_congr {α : Type} (I : Interpretation α) {text other : String}
    (h : lexemes text.toList = lexemes other.toList) (c : Calculator α) :
    c.evaluate I text = c.evaluate I other := by
  have hscan : scanText text.toList = scanText other.toList := by
    rw [scanText_eq_ofLexemes, h, scanText_eq_ofLexemes]
  rw [evaluate, acceptText, hscan]
  rfl

end Calculator

theorem evaluate_trim (power : Float → Float → Float) (n : Notation) (text : String) :
    evaluate power n (String.ofList (trim text.toList)) = evaluate power n text := by
  have hsame : lexemes (String.ofList (trim text.toList)).toList = lexemes text.toList := by
    rw [String.toList_ofList, lexemes_trim]
  exact congrArg Run.answer (Calculator.evaluate_congr (n.interpretation power) hsame .initial)

/-! Lines -/

theorem free_of_mem_splitOnP {p : Char → Bool} {text piece : List Char}
    (h : piece ∈ text.splitOnP p) : ∀ c ∈ piece, p c = false := by
  induction text generalizing piece with
  | nil =>
    obtain rfl : piece = [] := by simpa [List.splitOnP_nil] using h
    simp
  | cons c rest ih =>
    obtain ⟨first, others, hrest⟩ := List.exists_cons_of_ne_nil (List.splitOnP_ne_nil p rest)
    rw [hrest] at ih
    rw [List.splitOnP_cons_eq_if_modifyHead, hrest, List.modifyHead_cons] at h
    split at h
    · rcases List.mem_cons.mp h with rfl | hpiece
      · simp
      · exact ih hpiece
    · rename_i hc
      rcases List.mem_cons.mp h with rfl | hpiece
      · exact List.forall_mem_cons.mpr ⟨by simpa using hc, ih List.mem_cons_self⟩
      · exact ih (List.mem_cons_of_mem _ hpiece)

/-- Texts that each have a line end behind them are split one by one, and an empty piece is
left. -/
theorem splitOnP_ended (ends : Char → Bool) {stop : Char} (hstop : ends stop = true)
    (texts : List (List Char)) :
    (texts.flatMap (· ++ [stop])).splitOnP ends = texts.flatMap (·.splitOnP ends) ++ [[]] := by
  induction texts with
  | nil => rfl
  | cons text rest ih =>
    rw [List.flatMap_cons, List.append_assoc, List.singleton_append,
      List.splitOnP_append_cons _ _ hstop, ih, List.flatMap_cons, List.append_assoc]

theorem toList_join_ended (texts : List String) (stop : String) :
    (String.join (texts.map (· ++ stop))).toList =
      (texts.map String.toList).flatMap (· ++ stop.toList) := by
  simp [String.toList_join, List.flatMap_map]

/-- Texts that each end with a line feed are read as what stands between the line feeds of
each. -/
theorem inputLines_ended (texts : List (List Char)) :
    inputLines (texts.flatMap (· ++ ['\n'])) = texts.flatMap (·.splitOnP (· == '\n')) := by
  have hstop : ('\n' == '\n') = true := rfl
  rw [inputLines, splitLines, splitOnP_ended (· == '\n') hstop]
  simp

/-- Lines that each end with a line feed are read as they are. -/
theorem inputLines_join (lines : List (List Char)) (h : ∀ line ∈ lines, '\n' ∉ line) :
    inputLines (lines.flatMap (· ++ ['\n'])) = lines := by
  rw [inputLines_ended]
  induction lines with
  | nil => rfl
  | cons line rest ih =>
    have hline : line.splitOnP (· == '\n') = [line] := List.splitOnP_eq_singleton fun c hc =>
      beq_eq_false_iff_ne.mpr fun heq => h line List.mem_cons_self (heq ▸ hc)
    rw [List.flatMap_cons, hline, ih fun l hl => h l (List.mem_cons_of_mem _ hl),
      List.singleton_append]

/-- Texts that are each ended by a line feed are read back one on a line exactly if none
has a line feed itself. -/
theorem inputLines_join_iff (texts : List (List Char)) :
    inputLines (texts.flatMap (· ++ ['\n'])) = texts ↔ ∀ text ∈ texts, '\n' ∉ text := by
  refine ⟨fun h text htext hfeed => ?_, inputLines_join texts⟩
  rw [inputLines_ended] at h
  rw [← h] at htext
  obtain ⟨whole, -, hpiece⟩ := List.mem_flatMap.mp htext
  simpa using free_of_mem_splitOnP hpiece '\n' hfeed

namespace Interactive

variable {n : Notation}

/-- A line that is not blank and takes no leave asks for what stands between its blanks. -/
theorem Request.ofLine_expression {s : Settings} {line : List Char} (visible : ¬isBlankText line)
    (stays : String.ofList (trim line) ∉ s.farewells) :
    Request.ofLine s line = .expression (String.ofList (trim line)) := by
  have hvisible : (String.ofList (trim line)).isEmpty = false := by
    rw [Bool.eq_false_iff, ne_eq, String.isEmpty_iff, String.ofList_eq_empty_iff, trim_eq_nil_iff]
    exact visible
  simp [Request.ofLine, hvisible, stays]

/-- Lines that are all expressions are answered in order, each like the expression that
stands on it. -/
theorem converse_expressions (power : Float → Float → Float) (s : Settings)
    (lines : List (List Char))
    (h : ∀ line ∈ lines, ¬isBlankText line ∧ String.ofList (trim line) ∉ s.farewells) :
    let answers := lines.map fun line => evaluate power n (String.ofList line)
    let talk := converse power s n "" lines .initial
    talk.output = String.join (answers.map (answerLine s n)) ∧
      talk.failures = answers.countP isFailure := by
  induction lines with
  | nil => exact ⟨rfl, rfl⟩
  | cons line rest ih =>
    obtain ⟨visible, stays⟩ := h line (by simp)
    have hrequest := Request.ofLine_expression visible stays
    have hanswer : (attempt power n (String.ofList (trim line)) .initial).answer =
        evaluate power n (String.ofList line) := by
      rw [attempt_initial_answer, ← evaluate_trim power n (String.ofList line), String.toList_ofList]
    have hfresh : (answer power s n (String.ofList (trim line)) .initial).calculator = .initial :=
      attempt_calculator power n _ .initial
    obtain ⟨houtput, hfailures⟩ := ih fun l hl => h l (by simp [hl])
    simp only [converse, turn, hrequest, Transcript.append, hfresh, houtput, hfailures,
      List.map_cons]
    constructor
    · simp [answer, hanswer]
    · simp [answer, hanswer, List.countP_cons, Nat.add_comm]

end Interactive

namespace Batch

variable (power : Float → Float → Float) (library : TableLibrary) (s : Settings) {n : Notation}

/-- A batch prints of each expression what a conversation answers. -/
theorem output_run (texts : List String) (path : Option String) (storage : Storage) :
    (run power library s n texts path storage).output =
      String.join ((texts.map (InfixCalculator.evaluate power n)).map
        (Interactive.answerLine s n)) := by
  simp [run, output, Frame.rows_ofRows, evaluate_initial_rows, formatRow_kept, Function.comp_def]

/-- The errors in its table are the faults among its answers. -/
theorem failures_run (texts : List String) (path : Option String) (storage : Storage) :
    (run power library s n texts path storage).failures =
      (texts.map (InfixCalculator.evaluate power n)).countP isFailure := by
  simp [run, Frame.failureCount_ofRows, evaluate_initial_rows, Row.isMissing_error,
    List.countP_map, Function.comp_def]

end Batch

/-- Expressions of a line each, none of which is blank or takes leave, are answered in a
conversation without a prompt as they are in a batch, and as many of them fail. -/
theorem conversation_writes_batch (power : Float → Float → Float) (library : TableLibrary)
    (s : Settings) (n : Notation) (texts : List String) (path : Option String) (storage : Storage)
    (h : ∀ text ∈ texts, '\n' ∉ text.toList ∧ ¬isBlankText text.toList ∧
      String.ofList (trim text.toList) ∉ s.farewells) :
    let talk := Interactive.run power s n "" (String.join (texts.map (· ++ "\n"))) .initial
    let report := Batch.run power library s n texts path storage
    talk.output = report.output ∧ talk.failures = report.failures := by
  let lines := texts.map String.toList
  have hinput : inputLines (String.join (texts.map (· ++ "\n"))).toList = lines := by
    have hjoin : (String.join (texts.map (· ++ "\n"))).toList = lines.flatMap (· ++ ['\n']) := by
      simp [lines, String.toList_join, List.flatMap_map]
    rw [hjoin]
    refine inputLines_join lines fun line hline => ?_
    obtain ⟨text, htext, rfl⟩ := List.mem_map.mp hline
    exact (h text htext).1
  have hanswers : (lines.map fun line => evaluate power n (String.ofList line)) =
      texts.map (evaluate power n) := by
    simp [lines]
  obtain ⟨houtput, hfailures⟩ := Interactive.converse_expressions (n := n) power s lines
    fun line hline => by
      obtain ⟨text, htext, rfl⟩ := List.mem_map.mp hline
      exact (h text htext).2
  rw [hanswers] at houtput hfailures
  simp only [Interactive.run, hinput, Batch.output_run, Batch.failures_run]
  exact ⟨houtput, hfailures⟩

/-- Blanks and a carriage return at the ends of a line, a value that is no number, and two
kinds of fault. -/
theorem conversation_writes_batch_mixed :
    let texts := [" 0/0\r", "1 2", "()", "\t2^3 "]
    let talk := Interactive.run Platform.power .standard .value ""
      (String.join (texts.map (· ++ "\n"))) .initial
    let report := Batch.run Platform.power Platform.tables .standard .value texts none .empty
    (∀ text ∈ texts, '\n' ∉ text.toList ∧ ¬isBlankText text.toList ∧
      String.ofList (trim text.toList) ∉ Settings.standard.farewells) ∧
    talk.output = report.output ∧ talk.failures = report.failures := by
  intro texts talk report
  have h : ∀ text ∈ texts, '\n' ∉ text.toList ∧ ¬isBlankText text.toList ∧
      String.ofList (trim text.toList) ∉ Settings.standard.farewells := by
    simp only [texts, List.forall_mem_cons]
    decide +kernel
  exact ⟨h, conversation_writes_batch Platform.power Platform.tables .standard .value texts none
    .empty h⟩

end InfixCalculator
