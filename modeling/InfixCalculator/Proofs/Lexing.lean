import InfixCalculator.Lexer
import Mathlib.Data.List.DropRight

/-!
A text cut to pieces at its operators. The lexer, pulled to the end, delivers the
operands that the pieces spell and the operators between them; a blank piece is
nothing, and the first one that spells no operand ends the scan.
-/
namespace InfixCalculator

/-- The characters before the first operator, and each operator with the
characters behind it. -/
def pieces : List Char → List Char × List (Operator × List Char)
  | [] => ([], [])
  | c :: rest =>
    match Operator.ofChar? c with
    | some op => ([], (op, (pieces rest).1) :: (pieces rest).2)
    | none => (c :: (pieces rest).1, (pieces rest).2)

def scanPiece (piece : List Char) (more : Scan) : Scan :=
  if isBlankText piece then more
  else match readOperand piece with
    | .ok token => more.push token
    | .error fault => ⟨[], some fault⟩

def scanPieces (first : List Char) : List (Operator × List Char) → Scan
  | [] => scanPiece first ⟨[], none⟩
  | (op, next) :: rest => scanPiece first ((scanPieces next rest).push (.operator op))

/-- The pieces of a text are found by cutting again and again at the first operator. -/
theorem pieces_eq_cut (text : List Char) :
    pieces text =
      ((cutAtOperator text).1, (cutAtOperator text).2.elim [] fun stop =>
        (stop.1, (pieces stop.2).1) :: (pieces stop.2).2) := by
  induction text with
  | nil => rfl
  | cons c rest ih =>
    cases found : Operator.ofChar? c with
    | some op => simp [pieces, cutAtOperator, found]
    | none => simp [pieces, cutAtOperator, found, ih]

theorem isBlank_symbol (op : Operator) : isBlank op.symbol = false := by
  cases op with
  | binary op => cases op <;> decide
  | leftParen => decide
  | rightParen => decide

/-- Blanks before the first operator do not hide it. -/
theorem cutAtOperator_dropWhile (text : List Char) :
    cutAtOperator (text.dropWhile isBlank) =
      ((cutAtOperator text).1.dropWhile isBlank, (cutAtOperator text).2) := by
  induction text with
  | nil => rfl
  | cons c rest ih =>
    cases found : Operator.ofChar? c with
    | some op =>
      obtain rfl := Operator.ofChar?_eq_some_iff.mp found
      simp [isBlank_symbol, cutAtOperator_operator]
    | none =>
      by_cases blank : isBlank c <;>
        simp [blank, cutAtOperator_other rest found, ih]

/-- Blanks that the lexer has skipped make no difference to what is trimmed. -/
theorem trim_dropWhile (run : List Char) : trim (run.dropWhile isBlank) = trim run := by
  unfold trim
  rw [List.dropWhile_idempotent]

theorem readOperand_dropWhile (run : List Char) :
    readOperand (run.dropWhile isBlank) = readOperand run := by
  unfold readOperand
  rw [trim_dropWhile]

theorem isBlankText_iff {run : List Char} :
    isBlankText run ↔ run.dropWhile isBlank = [] := by
  rw [List.dropWhile_eq_nil_iff, isBlankText, List.all_eq_true]

theorem scanPiece_blank {run : List Char} (h : run.dropWhile isBlank = []) (more : Scan) :
    scanPiece run more = more := by
  rw [scanPiece, if_pos (isBlankText_iff.mpr h)]

theorem scanPiece_token {run : List Char} {token : Token} (h : run.dropWhile isBlank ≠ [])
    (spelled : readOperand (run.dropWhile isBlank) = .ok token) (more : Scan) :
    scanPiece run more = more.push token := by
  rw [readOperand_dropWhile] at spelled
  rw [scanPiece, if_neg (mt isBlankText_iff.mp h), spelled]

theorem scanPiece_fault {run : List Char} {fault : Fault} (h : run.dropWhile isBlank ≠ [])
    (spelled : readOperand (run.dropWhile isBlank) = .error fault) (more : Scan) :
    scanPiece run more = ⟨[], some fault⟩ := by
  rw [readOperand_dropWhile] at spelled
  rw [scanPiece, if_neg (mt isBlankText_iff.mp h), spelled]

namespace Lexer

theorem scan_of_token {l next : Lexer} {token : Token}
    (h : l.pull = (.ok (some token), next)) : l.scan = next.scan.push token := by
  rw [scan]
  split <;> simp_all

theorem scan_of_end {l next : Lexer} (h : l.pull = (.ok none, next)) :
    l.scan = ⟨[], none⟩ := by
  rw [scan]
  split <;> simp_all

theorem scan_of_fault {l next : Lexer} {fault : Fault}
    (h : l.pull = (.error fault, next)) : l.scan = ⟨[], some fault⟩ := by
  rw [scan]
  split <;> simp_all

def idleAt (before rest : List Char) : Lexer := ⟨before, rest, [], none, .idle⟩

theorem pull_idleAt (before rest : List Char) :
    (idleAt before rest).pull = (idleAt before rest).skipBlanks.advance := rfl

theorem pull_due (before rest : List Char) (op : Operator) :
    (⟨before, rest, [], some op, .operatorDue⟩ : Lexer).pull =
      (.ok (some (.operator op)), idleAt before rest) := rfl

/-- A run up to the end of the text is the last piece. -/
theorem scan_idleAt_end (before : List Char) {rest run : List Char}
    (hcut : cutAtOperator rest = (run, none)) :
    (idleAt before rest).scan = scanPiece run ⟨[], none⟩ := by
  have hpull := pull_idleAt before rest
  simp only [advance, skipBlanks, idleAt, cutAtOperator_dropWhile, hcut] at hpull
  by_cases blank : run.dropWhile isBlank = []
  · rw [scanPiece_blank blank]
    simp only [blank, collect, meetEnd] at hpull
    exact scan_of_end hpull
  · simp only [collect, meetEnd, List.isEmpty_iff, blank, if_false, if_true, flush,
      List.nil_append] at hpull
    cases spelled : readOperand (run.dropWhile isBlank) with
    | error fault =>
      rw [spelled] at hpull
      rw [scanPiece_fault blank spelled]
      exact scan_of_fault hpull
    | ok token =>
      rw [spelled] at hpull
      rw [scanPiece_token blank spelled]
      exact (scan_of_token hpull).trans (congrArg (Scan.push token) (scan_of_end rfl))

/-- A run up to an operator is a piece, and the operator is due before the rest. -/
theorem scan_idleAt_operator (before : List Char) {rest run after : List Char} {op : Operator}
    (hcut : cutAtOperator rest = (run, some (op, after))) :
    ∃ place, (idleAt before rest).scan =
      scanPiece run ((idleAt place after).scan.push (.operator op)) := by
  have hpull := pull_idleAt before rest
  simp only [advance, skipBlanks, idleAt, cutAtOperator_dropWhile, hcut] at hpull
  by_cases blank : run.dropWhile isBlank = []
  · simp only [blank, collect, meetOperator] at hpull
    exact ⟨_, (scan_of_token hpull).trans (scanPiece_blank blank _).symm⟩
  · simp only [collect, meetOperator, List.isEmpty_iff, blank, if_false, if_true, flush,
      List.nil_append] at hpull
    cases spelled : readOperand (run.dropWhile isBlank) with
    | error fault =>
      rw [spelled] at hpull
      refine ⟨before, ?_⟩
      rw [scanPiece_fault blank spelled]
      exact scan_of_fault hpull
    | ok token =>
      rw [spelled] at hpull
      have hscan := (scan_of_token hpull).trans
        (congrArg (Scan.push token) (scan_of_token (pull_due _ after op)))
      rw [← scanPiece_token blank spelled] at hscan
      exact ⟨_, hscan⟩

/-- From any place between tokens, the rest of the text is cut to pieces. -/
theorem scan_idleAt (before rest : List Char) :
    (idleAt before rest).scan = scanPieces (pieces rest).1 (pieces rest).2 := by
  induction size : rest.length using Nat.strongRecOn generalizing before rest with
  | ind n ih =>
    have hsize := length_cutAtOperator rest
    have hpieces := pieces_eq_cut rest
    rw [hpieces]
    match hcut : cutAtOperator rest with
    | (run, none) => exact scan_idleAt_end before hcut
    | (run, some (op, after)) =>
      rw [hcut] at hsize
      have hafter : after.length < n := by
        simp only [Option.elim] at hsize
        omega
      obtain ⟨place, hscan⟩ := scan_idleAt_operator before hcut
      rw [hscan, ih after.length hafter place after rfl]
      rfl

end Lexer

/-- The scan of a text, piece by piece. -/
theorem scanText_eq_scanPieces (text : List Char) :
    scanText text = scanPieces (pieces text).1 (pieces text).2 :=
  Lexer.scan_idleAt [] text

theorem readOperand_named {piece : List Char} {fault : Fault}
    (h : readOperand piece = .error fault) : fault.kind?.isSome := by
  unfold readOperand at h
  split at h
  · contradiction
  · rw [← Except.error.inj h]
    rfl

theorem scanPiece_named (piece : List Char) {more : Scan}
    (h : ∀ fault ∈ more.fault, fault.kind?.isSome) :
    ∀ fault ∈ (scanPiece piece more).fault, fault.kind?.isSome := by
  intro fault hfault
  unfold scanPiece at hfault
  split at hfault
  · exact h fault hfault
  · cases hread : readOperand piece with
    | ok token =>
      rw [hread] at hfault
      exact h fault hfault
    | error found =>
      rw [hread] at hfault
      obtain rfl : found = fault := Option.some.inj hfault
      exact readOperand_named hread

/-- Whatever a text holds, its fault has a name. -/
theorem scanPieces_named (first : List Char) (rest : List (Operator × List Char)) :
    ∀ fault ∈ (scanPieces first rest).fault, fault.kind?.isSome := by
  induction rest generalizing first with
  | nil => exact scanPiece_named first nofun
  | cons stop rest ih => exact scanPiece_named first (ih stop.2)

end InfixCalculator
