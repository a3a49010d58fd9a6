import InfixCalculator.Proofs.Conversation
import InfixCalculator.Session.Source

/-!
A text file is a list of expressions: the runs of characters between line breaks, as they
stand, without those that are blank. A line break more or less beside a run makes no
difference, and so it does not matter how the ends of lines are typed, in which way they
are made alike before the text is cut, or whether two characters count as one end.
-/
namespace InfixCalculator

/-! Runs -/

def lineBreaks : List Char :=
  ['\n', '\x0b', '\x0c', '\r', '\x1c', '\x1d', '\x1e', '\u0085', '\u2028', '\u2029']

theorem isLineBreak_eq (c : Char) : isLineBreak c = decide (c ∈ lineBreaks) := by
  rw [Bool.eq_iff_iff, decide_eq_true_eq]
  simp only [isLineBreak, lineBreaks, List.mem_cons, List.not_mem_nil, or_false, Bool.or_eq_true,
    Bool.and_eq_true, decide_eq_true_eq, beq_iff_eq, ← Char.toNat_inj]
  have hcodes : ('\n'.toNat = 0x0a ∧ '\x0b'.toNat = 0x0b ∧ '\x0c'.toNat = 0x0c ∧
      '\r'.toNat = 0x0d ∧ '\x1c'.toNat = 0x1c) ∧ '\x1d'.toNat = 0x1d ∧ '\x1e'.toNat = 0x1e ∧
      '\u0085'.toNat = 0x85 ∧ '\u2028'.toNat = 0x2028 ∧ '\u2029'.toNat = 0x2029 := by decide
  omega

/-- The longest runs of characters without a line break that hold anything but blanks. -/
def visibleRuns (text : List Char) : List (List Char) :=
  (text.splitOnP (· ∈ lineBreaks)).filter fun run => run.any (!isBlank ·)

theorem visibleRuns_append_break {c : Char} (hc : c ∈ lineBreaks) (front back : List Char) :
    visibleRuns (front ++ c :: back) = visibleRuns front ++ visibleRuns back := by
  rw [visibleRuns, List.splitOnP_append_cons front back (by simpa using hc), List.filter_append]
  rfl

theorem of_mem_visibleRuns {text run : List Char} (h : run ∈ visibleRuns text) :
    (∀ c ∈ run, c ∉ lineBreaks) ∧ run.any (!isBlank ·) := by
  obtain ⟨hrun, visible⟩ := List.mem_filter.mp h
  exact ⟨fun c hc => by simpa using free_of_mem_splitOnP hrun c hc, visible⟩

theorem visibleRuns_singleton {run : List Char} (free : ∀ c ∈ run, c ∉ lineBreaks)
    (visible : run.any (!isBlank ·)) : visibleRuns run = [run] := by
  rw [visibleRuns, List.splitOnP_eq_singleton fun c hc => by simpa using free c hc]
  simp [visible]

/-! Ends of lines -/

inductive LineEnd : List Char → Prop where
  | feed : LineEnd ['\n']
  | carriageReturn : LineEnd ['\r']
  | both : LineEnd ['\r', '\n']

/-- An end of a line is as good as any other break. -/
theorem LineEnd.visibleRuns_append {stop : List Char} (h : LineEnd stop) (front back : List Char) :
    visibleRuns (front ++ (stop ++ back)) = visibleRuns front ++ visibleRuns back := by
  have hreturn : '\r' ∈ lineBreaks := by decide
  have hfeed : '\n' ∈ lineBreaks := by decide
  cases h with
  | feed => exact visibleRuns_append_break hfeed front back
  | carriageReturn => exact visibleRuns_append_break hreturn front back
  | both =>
    -- Between the two characters lies a run with nothing in it.
    have hbehind : visibleRuns ('\n' :: back) = visibleRuns back :=
      visibleRuns_append_break hfeed [] back
    calc visibleRuns (front ++ '\r' :: '\n' :: back)
        = visibleRuns front ++ visibleRuns ('\n' :: back) :=
          visibleRuns_append_break hreturn front _
      _ = visibleRuns front ++ visibleRuns back := by rw [hbehind]

/-- Runs that are written one on each line are the runs of the text. -/
theorem visibleRuns_lines {stop : List Char} (hstop : LineEnd stop) {runs : List (List Char)}
    (h : ∀ run ∈ runs, (∀ c ∈ run, c ∉ lineBreaks) ∧ run.any (!isBlank ·)) :
    visibleRuns (runs.flatMap (· ++ stop)) = runs := by
  induction runs with
  | nil => rfl
  | cons run rest ih =>
    obtain ⟨free, visible⟩ := h run (by simp)
    rw [List.flatMap_cons, List.append_assoc, hstop.visibleRuns_append,
      visibleRuns_singleton free visible, ih fun r hr => h r (by simp [hr])]
    rfl

/-- The same text but for some ends of lines, each of which is typed in another way. -/
inductive Retyped : List Char → List Char → Prop where
  | nil : Retyped [] []
  | same (c : Char) {text other : List Char} (h : Retyped text other) :
      Retyped (c :: text) (c :: other)
  | ended {stop stop' text other : List Char} (hstop : LineEnd stop) (hstop' : LineEnd stop')
      (h : Retyped text other) : Retyped (stop ++ text) (stop' ++ other)

theorem Retyped.visibleRuns_append {text other : List Char} (h : Retyped text other)
    (front : List Char) : visibleRuns (front ++ text) = visibleRuns (front ++ other) := by
  induction h generalizing front with
  | nil => rfl
  | same c _ ih => simpa using ih (front ++ [c])
  | ended hstop hstop' _ ih =>
    rw [hstop.visibleRuns_append, hstop'.visibleRuns_append]
    exact congrArg _ (ih [])

/-- A text keeps its runs when its line breaks are typed otherwise. -/
theorem Retyped.visibleRuns_eq {text other : List Char} (h : Retyped text other) :
    visibleRuns text = visibleRuns other := h.visibleRuns_append []

/-- What a text becomes when it is read from a file. -/
theorem retyped_unifyLineEnds (text : List Char) : Retyped text (unifyLineEnds text) := by
  induction text using unifyLineEnds.induct with
  | case1 => exact .nil
  | case2 rest ih => exact .ended .both .feed ih
  | case3 c rest unpaired ih =>
    rw [unifyLineEnds]
    · split
      · rename_i hc
        subst hc
        exact .ended .carriageReturn .feed ih
      · exact .same c ih
    · exact unpaired

/-! Files -/

namespace Source

/-- Two line breaks in one, or an empty line at the end, make no difference to the lines
that show something. -/
theorem filter_splitLines (ends : Char → Bool) (text : List Char) :
    (splitLines ends text).filter (fun run => run.any (!isBlank ·)) =
      (text.splitOnP ends).filter fun run => run.any (!isBlank ·) := by
  unfold splitLines
  dsimp only
  split
  · rename_i hlast
    obtain ⟨pieces, hpieces⟩ := List.getLast?_eq_some_iff.mp hlast
    rw [hpieces, List.dropLast_concat, List.filter_append]
    simp
  · rfl

/-- The lines of a text that are not blank, however its line ends were typed. -/
theorem withoutBlanks_lines (text : List Char) :
    withoutBlanks ((splitLines isLineBreak text).map String.ofList) =
      (visibleRuns text).map String.ofList := by
  have hbreaks : isLineBreak = fun c => decide (c ∈ lineBreaks) := funext isLineBreak_eq
  have hvisible : ((fun expression : String => !isBlankText expression.toList) ∘ String.ofList) =
      fun run : List Char => run.any (!isBlank ·) := by
    funext run
    simp [isBlankText, List.not_all_eq_any_not]
  rw [withoutBlanks, List.filter_map, hvisible, filter_splitLines, hbreaks]
  rfl

/-- A file that is no table is read as the visible runs of its text. -/
theorem expressions_text (s : Settings) {column name text : String} {bytes : ByteArray}
    (plain : isTable name = false) (decoded : String.fromUTF8? bytes = some text) :
    expressions s column name (some (.file bytes)) =
      .ok ((visibleRuns text.toList).map String.ofList) := by
  have hunify := (retyped_unifyLineEnds text.toList).visibleRuns_eq
  simp only [expressions, decoded, pieces, plain, textLines]
  exact congrArg Except.ok ((withoutBlanks_lines _).trans (by rw [hunify]))

end Source

/-- A text file loads as its runs that are not blank, unchanged and in order. They are the
same for all ways to type the ends of its lines, also if nothing is done about these before
the text is cut. Written one on each line, they load as they are. -/
theorem text_file_loads_visible_runs (s : Settings) (column : String) {name text : String}
    {bytes : ByteArray} (plain : Source.isTable name = false)
    (decoded : String.fromUTF8? bytes = some text) :
    let loaded := (visibleRuns text.toList).map String.ofList
    Source.expressions s column name (some (.file bytes)) = .ok loaded ∧
    (∀ other : String, Retyped text.toList other.toList →
      Source.expressions s column name (some (.file other.toUTF8)) = .ok loaded ∧
      Source.withoutBlanks ((splitLines isLineBreak other.toList).map String.ofList) = loaded) ∧
    ∀ stop : String, LineEnd stop.toList →
      Source.expressions s column name
        (some (.file (String.join (loaded.map (· ++ stop))).toUTF8)) = .ok loaded := by
  refine ⟨Source.expressions_text s plain decoded, fun other h => ⟨?_, ?_⟩, fun stop hstop => ?_⟩
  · rw [Source.expressions_text s plain (Source.fromUTF8?_toUTF8 other), h.visibleRuns_eq]
  · rw [Source.withoutBlanks_lines, h.visibleRuns_eq]
  · have hwritten : (String.join (((visibleRuns text.toList).map String.ofList).map
        (· ++ stop))).toList = (visibleRuns text.toList).flatMap (· ++ stop.toList) := by
      rw [toList_join_ended]
      simp [Function.comp_def]
    rw [Source.expressions_text s plain (Source.fromUTF8?_toUTF8 _), hwritten,
      visibleRuns_lines hstop fun _ => of_mem_visibleRuns]

/-- A mark at the beginning, a blank line, a line separator and a tabulation that ends a line;
typed with carriage returns, and with line feeds only. -/
theorem text_file_loads_visible_runs_mixed :
    let text := "\ufeff1+2\r\n\u3000\r 3*4 \u2028(5\x0b"
    let other := "\ufeff1+2\n\u3000\n 3*4 \u2028(5\x0b"
    let loaded := ["\ufeff1+2", " 3*4 ", "(5"]
    let load (text : String) := Source.expressions .standard "" "list.txt" (some (.file text.toUTF8))
    (Source.isTable "list.txt" = false ∧ String.fromUTF8? text.toUTF8 = some text) ∧
    Retyped text.toList other.toList ∧ LineEnd "\r\n".toList ∧
    load text = .ok loaded ∧ load other = .ok loaded ∧
    load "\ufeff1+2\r\n 3*4 \r\n(5\r\n" = .ok loaded := by
  intro text other loaded load
  have plain : Source.isTable "list.txt" = false := by decide +kernel
  have decoded : String.fromUTF8? text.toUTF8 = some text := Source.fromUTF8?_toUTF8 text
  have hstop : LineEnd "\r\n".toList := .both
  have hretyped : Retyped text.toList other.toList := by
    have hunify : unifyLineEnds text.toList = other.toList := by decide +kernel
    exact hunify ▸ retyped_unifyLineEnds text.toList
  have hruns : (visibleRuns text.toList).map String.ofList = loaded := by decide +kernel
  have hwritten : String.join (loaded.map (· ++ "\r\n")) = "\ufeff1+2\r\n 3*4 \r\n(5\r\n" := by
    decide +kernel
  obtain ⟨htext, hother, hlines⟩ :=
    text_file_loads_visible_runs .standard "" plain decoded
  rw [hruns] at htext hother hlines
  have hloaded := hlines "\r\n" hstop
  rw [hwritten] at hloaded
  exact ⟨⟨plain, decoded⟩, hretyped, hstop, htext, (hother other hretyped).1, hloaded⟩

end InfixCalculator
