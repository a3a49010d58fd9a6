import InfixCalculator.Proofs.Lexing

/-!
What a text says, lexeme by lexeme: it is cut at its operators; a blank piece says
nothing, a piece that spells a numeral is an operand, and any other piece is a fault.
Blanks at the ends of the text and beside its operators say nothing. The scan of a text
is what it says up to the first fault.
-/
namespace InfixCalculator

/-- Digits, digits and a point with any digits behind it, or a point and digits. -/
inductive Numeral.Spells : Numeral → List Char → Prop where
  | whole {digits : List Char} (written : digits ≠ []) (all : ∀ c ∈ digits, c.isDigit) :
      Spells ⟨ofDigits digits, 0⟩ digits
  | pointed {whole fraction : List Char} (written : whole ≠ [])
      (all : ∀ c ∈ whole ++ fraction, c.isDigit) :
      Spells ⟨ofDigits (whole ++ fraction), fraction.length⟩ (whole ++ '.' :: fraction)
  | fraction {fraction : List Char} (written : fraction ≠ []) (all : ∀ c ∈ fraction, c.isDigit) :
      Spells ⟨ofDigits fraction, fraction.length⟩ ('.' :: fraction)

/-- A token, or the fault of a piece of text that spells none. -/
abbrev Lexeme := Except Fault Token

inductive PieceReads : List Char → List Lexeme → Prop where
  | blank {piece : List Char} (h : ∀ c ∈ piece, isBlank c) : PieceReads piece []
  | operand {piece : List Char} {numeral : Numeral} (h : numeral.Spells (trim piece)) :
      PieceReads piece [.ok (.operand numeral.value)]
  | unknown {piece : List Char} (visible : ∃ c ∈ piece, isBlank c = false)
      (h : ∀ numeral : Numeral, ¬numeral.Spells (trim piece)) :
      PieceReads piece [.error (.unknownSymbol (String.ofList (trim piece)))]

def OperatorFree (piece : List Char) : Prop := ∀ c ∈ piece, Operator.ofChar? c = none

/-- What a text says: its first piece, the operator that ends the piece, and the
rest. -/
inductive Reads : List Char → List Lexeme → Prop where
  | last {piece : List Char} {lexemes : List Lexeme} (free : OperatorFree piece)
      (h : PieceReads piece lexemes) : Reads piece lexemes
  | more {piece rest : List Char} {op : Operator} {lexemes others : List Lexeme}
      (free : OperatorFree piece) (h : PieceReads piece lexemes) (hrest : Reads rest others) :
      Reads (piece ++ op.symbol :: rest) (lexemes ++ .ok (.operator op) :: others)

/-! Numerals -/

theorem isDigit_point : Char.isDigit '.' = false := by decide

theorem takeWhile_digits {digits : List Char} (h : ∀ c ∈ digits, c.isDigit) :
    digits.takeWhile Char.isDigit = digits ∧ digits.dropWhile Char.isDigit = [] := by
  constructor
  · exact List.takeWhile_eq_self_iff.mpr h
  · exact List.dropWhile_eq_nil_iff.mpr h

theorem takeWhile_digits_point {digits : List Char} (h : ∀ c ∈ digits, c.isDigit)
    (rest : List Char) :
    (digits ++ '.' :: rest).takeWhile Char.isDigit = digits ∧
      (digits ++ '.' :: rest).dropWhile Char.isDigit = '.' :: rest := by
  rw [List.takeWhile_append_of_pos h, List.dropWhile_append_of_pos h]
  simp [isDigit_point]

namespace Numeral

theorem Spells.read? {n : Numeral} {text : List Char} (h : n.Spells text) :
    read? text = some n := by
  cases h with
  | whole written all =>
    obtain ⟨htake, hdrop⟩ := takeWhile_digits all
    simp [Numeral.read?, htake, hdrop, written]
  | @pointed whole fraction written all =>
    have hwhole : ∀ c ∈ whole, c.isDigit := fun c hc => all c (by simp [hc])
    have hfraction : fraction.all Char.isDigit := by
      rw [List.all_eq_true]
      exact fun c hc => all c (by simp [hc])
    obtain ⟨htake, hdrop⟩ := takeWhile_digits_point hwhole fraction
    simp only [Numeral.read?, htake, hdrop]
    simp [written, hfraction]
  | @fraction fraction written all =>
    have hfraction : fraction.all Char.isDigit := List.all_eq_true.mpr all
    simp [Numeral.read?, isDigit_point, hfraction, written]

theorem spells_of_read? {n : Numeral} {text : List Char} (h : read? text = some n) :
    n.Spells text := by
  have hwhole : ∀ c ∈ text.takeWhile Char.isDigit, c.isDigit := fun c hc =>
    List.mem_takeWhile_imp hc
  have htext := List.takeWhile_append_dropWhile (p := Char.isDigit) (l := text)
  unfold Numeral.read? at h
  generalize text.takeWhile Char.isDigit = whole at h hwhole htext
  generalize text.dropWhile Char.isDigit = behind at h htext
  subst htext
  cases behind with
  | nil =>
    cases whole with
    | nil => simp at h
    | cons c digits =>
      obtain rfl : _ = n := by simpa using h
      simpa using Spells.whole (by simp) hwhole
  | cons c fraction =>
    obtain ⟨⟨rfl, hfraction, hwritten⟩, rfl⟩ := by simpa using h
    cases whole with
    | nil => exact .fraction (by simpa using hwritten) hfraction
    | cons d digits =>
      refine .pointed (by simp) fun e he => ?_
      rcases List.mem_append.mp he with he | he
      · exact hwhole e he
      · exact hfraction e he

/-- Exactly the spellings of a numeral are read as that numeral. -/
theorem read?_eq_some_iff {n : Numeral} {text : List Char} :
    read? text = some n ↔ n.Spells text := ⟨spells_of_read?, Spells.read?⟩

theorem Spells.ne_nil {n : Numeral} {text : List Char} (h : n.Spells text) : text ≠ [] := by
  rintro rfl
  have hread := h.read?
  contradiction

theorem Spells.chars {n : Numeral} {text : List Char} (h : n.Spells text) :
    ∀ c ∈ text, c.isDigit ∨ c = '.' := by
  intro c hc
  cases h with
  | whole _ all => exact .inl (all c hc)
  | pointed _ all =>
    rcases List.mem_append.mp hc with hc | hc
    · exact .inl (all c (List.mem_append_left _ hc))
    · rcases List.mem_cons.mp hc with rfl | hc
      · exact .inr rfl
      · exact .inl (all c (List.mem_append_right _ hc))
  | fraction _ all =>
    rcases List.mem_cons.mp hc with rfl | hc
    · exact .inr rfl
    · exact .inl (all c hc)

theorem ofDigits_eq_ofDigitChars (digits : List Char) :
    ofDigits digits = Nat.ofDigitChars 10 digits 0 := by
  rw [ofDigits, Nat.ofDigitChars_eq_foldl]

theorem ofDigits_padded (k n : ℕ) : ofDigits (List.replicate k '0' ++ Nat.toDigits 10 n) = n := by
  rw [ofDigits_eq_ofDigitChars, Nat.ofDigitChars_append, Nat.ofDigitChars_replicate_zero]
  simp [Nat.ofDigitChars_ten_toDigits]

/-- A numeral is spelled by the text that is written for it. -/
theorem spells_text (n : Numeral) : n.Spells n.text := by
  obtain ⟨mantissa, places⟩ := n
  have hpadded (k : ℕ) : ∀ c ∈ List.replicate k '0' ++ Nat.toDigits 10 mantissa, c.isDigit := by
    intro c hc
    rcases List.mem_append.mp hc with hc | hc
    · rw [List.eq_of_mem_replicate hc]
      decide
    · exact Nat.isDigit_of_mem_toDigits (by decide) (by decide) hc
  unfold text
  dsimp only
  split
  · subst places
    have hspells := Spells.whole Nat.toDigits_ne_nil (hpadded 0)
    have hvalue : ofDigits (Nat.toDigits 10 mantissa) = mantissa := ofDigits_padded 0 mantissa
    rwa [hvalue] at hspells
  · generalize hzeros : places + 1 - (Nat.toDigits 10 mantissa).length = zeros
    have hlength : places < (List.replicate zeros '0' ++ Nat.toDigits 10 mantissa).length := by
      rw [List.length_append, List.length_replicate]
      omega
    have hall := hpadded zeros
    have hvalue := ofDigits_padded zeros mantissa
    generalize List.replicate zeros '0' ++ Nat.toDigits 10 mantissa = padded at hlength hall hvalue
    have hwhole : padded.take (padded.length - places) ≠ [] := by
      rw [ne_eq, List.take_eq_nil_iff]
      rintro (h | rfl)
      · omega
      · simp at hlength
    have hcut := List.take_append_drop (padded.length - places) padded
    have hplaces : (padded.drop (padded.length - places)).length = places := by
      rw [List.length_drop]
      omega
    have hspells := Spells.pointed hwhole (hcut.symm ▸ hall)
    rwa [hcut, hvalue, hplaces] at hspells

theorem text_injective : Function.Injective text := by
  intro n n' h
  have hn := n.spells_text.read?
  rw [h, n'.spells_text.read?] at hn
  exact (Option.some.inj hn).symm

end Numeral

/-! Pieces -/

/-- What the pieces of a text say. -/
def pieceLexemes (piece : List Char) : List Lexeme :=
  if isBlankText piece then [] else [readOperand piece]

def lexemes (text : List Char) : List Lexeme :=
  pieceLexemes (pieces text).1 ++
    (pieces text).2.flatMap fun stop => .ok (.operator stop.1) :: pieceLexemes stop.2

theorem isBlankText_eq_true_iff {piece : List Char} :
    isBlankText piece = true ↔ ∀ c ∈ piece, isBlank c = true := List.all_eq_true

theorem trim_of_blank {piece : List Char} (h : ∀ c ∈ piece, isBlank c) : trim piece = [] := by
  rw [trim, List.dropWhile_eq_nil_iff.mpr h]
  rfl

theorem PieceReads.lexemes_eq {piece : List Char} {found : List Lexeme}
    (h : PieceReads piece found) : found = pieceLexemes piece := by
  cases h with
  | blank h => rw [pieceLexemes, if_pos (isBlankText_eq_true_iff.mpr h)]
  | @operand numeral h =>
    have hread : Numeral.read? (trim piece) = some numeral := h.read?
    have hvisible : ¬isBlankText piece := by
      intro blank
      rw [trim_of_blank (isBlankText_eq_true_iff.mp blank)] at hread
      contradiction
    rw [pieceLexemes, if_neg hvisible, readOperand, hread]
  | unknown visible h =>
    obtain ⟨c, hc, hcblank⟩ := visible
    have hvisible : ¬isBlankText piece := by
      intro blank
      rw [isBlankText_eq_true_iff.mp blank c hc] at hcblank
      contradiction
    have hread : Numeral.read? (trim piece) = none := by
      rw [Option.eq_none_iff_forall_ne_some]
      exact fun numeral hnumeral => h numeral (Numeral.read?_eq_some_iff.mp hnumeral)
    rw [pieceLexemes, if_neg hvisible, readOperand, hread]

theorem pieceReads_lexemes (piece : List Char) : PieceReads piece (pieceLexemes piece) := by
  unfold pieceLexemes
  split
  · exact .blank (isBlankText_eq_true_iff.mp ‹_›)
  · rename_i visible
    unfold readOperand
    split
    · exact .operand (Numeral.read?_eq_some_iff.mp ‹_›)
    · rename_i hread
      refine .unknown ?_ fun numeral h => ?_
      · by_contra hblank
        refine visible (isBlankText_eq_true_iff.mpr fun c hc => ?_)
        by_contra hc'
        exact hblank ⟨c, hc, by simpa using hc'⟩
      · rw [h.read?] at hread
        contradiction

theorem symbol_not_alphanum (op : Operator) : ¬(op.symbol.isAlphanum ∨ op.symbol = '.') := by
  cases op with
  | binary op => cases op <;> decide
  | leftParen | rightParen => decide

theorem pieces_of_free {piece : List Char} (h : OperatorFree piece) :
    pieces piece = (piece, []) := by
  induction piece with
  | nil => rfl
  | cons c rest ih =>
    have hc : Operator.ofChar? c = none := h c (by simp)
    have hrest := ih fun d hd => h d (by simp [hd])
    simp [pieces, hc, hrest]

/-- An operator in a text ends one piece and begins another. -/
theorem pieces_append_operator (before : List Char) (op : Operator) (rest : List Char) :
    pieces (before ++ op.symbol :: rest) =
      ((pieces before).1, (pieces before).2 ++ (op, (pieces rest).1) :: (pieces rest).2) := by
  induction before with
  | nil => simp [pieces]
  | cons c before ih =>
    cases found : Operator.ofChar? c with
    | some other => simp [pieces, found, ih]
    | none => simp [pieces, found, ih]

/-- A text is one piece, or a piece, an operator and a text. -/
@[elab_as_elim]
theorem text_induction {P : List Char → Prop} (text : List Char)
    (piece : ∀ piece, OperatorFree piece → P piece)
    (more : ∀ (piece : List Char) (op : Operator) (rest : List Char), OperatorFree piece →
      P rest → P (piece ++ op.symbol :: rest)) : P text := by
  -- On the length: what is left is the rest behind the first operator, not the next tail.
  induction size : text.length using Nat.strongRecOn generalizing text with
  | ind n ih =>
    have hcut : text.takeWhile (fun c => (Operator.ofChar? c).isNone) ++
        text.dropWhile (fun c => (Operator.ofChar? c).isNone) = text :=
      List.takeWhile_append_dropWhile
    have hfree : OperatorFree (text.takeWhile fun c => (Operator.ofChar? c).isNone) :=
      fun c hc => by simpa using List.mem_takeWhile_imp hc
    cases hdrop : text.dropWhile (fun c => (Operator.ofChar? c).isNone) with
    | nil =>
      rw [hdrop, List.append_nil] at hcut
      exact piece text (hcut ▸ hfree)
    | cons c rest =>
      have hc : (Operator.ofChar? c).isNone = false := by
        have hhead := List.head?_dropWhile_not (fun c => (Operator.ofChar? c).isNone) text
        simpa [hdrop] using hhead
      obtain ⟨op, hop⟩ := Option.isSome_iff_exists.mp (by simpa using hc)
      obtain rfl := Operator.ofChar?_eq_some_iff.mp hop
      have hrest : rest.length < n := by
        rw [← size, ← hcut, hdrop]
        simp
        omega
      rw [← hcut, hdrop]
      exact more _ op rest hfree (ih rest.length hrest rest rfl)

theorem lexemes_of_free {piece : List Char} (h : OperatorFree piece) :
    lexemes piece = pieceLexemes piece := by
  simp [lexemes, pieces_of_free h]

theorem lexemes_append_operator (before : List Char) (op : Operator) (rest : List Char) :
    lexemes (before ++ op.symbol :: rest) =
      lexemes before ++ .ok (.operator op) :: lexemes rest := by
  simp [lexemes, pieces_append_operator]

/-- Each text says one thing. -/
theorem reads_iff {text : List Char} {found : List Lexeme} :
    Reads text found ↔ found = lexemes text := by
  constructor
  · intro h
    induction h with
    | last free h => rw [h.lexemes_eq, lexemes_of_free free]
    | more free h hrest ih => rw [lexemes_append_operator, lexemes_of_free free, h.lexemes_eq, ih]
  · rintro rfl
    induction text using text_induction with
    | piece piece free =>
      rw [lexemes_of_free free]
      exact .last free (pieceReads_lexemes piece)
    | more piece op rest free ih =>
      rw [lexemes_append_operator, lexemes_of_free free]
      exact .more free (pieceReads_lexemes piece) ih

theorem PieceReads.unknownSymbol {piece : List Char} {found : List Lexeme}
    (h : PieceReads piece found) {fault : Fault} (hfault : .error fault ∈ found) :
    ∃ symbol, fault = .unknownSymbol symbol := by
  cases h with
  | blank => simp at hfault
  | operand => simp at hfault
  | unknown => exact ⟨_, by simpa using hfault⟩

/-- The only fault of a text by itself is an unknown symbol. -/
theorem Reads.unknownSymbol {text : List Char} {found : List Lexeme} (h : Reads text found)
    {fault : Fault} (hfault : .error fault ∈ found) : ∃ symbol, fault = .unknownSymbol symbol := by
  induction h with
  | last _ hpiece => exact hpiece.unknownSymbol hfault
  | more _ hpiece _ ih =>
    rcases List.mem_append.mp hfault with hfault | hfault
    · exact hpiece.unknownSymbol hfault
    · exact ih (by simpa using hfault)

theorem PieceReads.numeral {piece : List Char} {found : List Lexeme}
    (h : PieceReads piece found) {x : Float} (hx : .ok (.operand x) ∈ found) :
    ∃ numeral : Numeral, x = numeral.value := by
  cases h with
  | blank => simp at hx
  | operand => exact ⟨_, by simpa using hx⟩
  | unknown => simp at hx

/-- The operands of a text are values of numerals. -/
theorem Reads.numeral {text : List Char} {found : List Lexeme} (h : Reads text found)
    {x : Float} (hx : .ok (.operand x) ∈ found) : ∃ numeral : Numeral, x = numeral.value := by
  induction h with
  | last _ hpiece => exact hpiece.numeral hx
  | more _ hpiece _ ih =>
    rcases List.mem_append.mp hx with hx | hx
    · exact hpiece.numeral hx
    · exact ih (by simpa using hx)

/-! Blanks -/

theorem trim_blank_append {gap : List Char} (h : ∀ c ∈ gap, isBlank c) (text : List Char) :
    trim (gap ++ text) = trim text := by
  rw [trim, List.dropWhile_append_of_pos h, trim]

theorem trim_append_blank {gap : List Char} (h : ∀ c ∈ gap, isBlank c) (text : List Char) :
    trim (text ++ gap) = trim text := by
  have hgap : ∀ c ∈ gap.reverse, isBlank c := fun c hc => h c (List.mem_reverse.mp hc)
  unfold trim
  rw [List.dropWhile_append]
  split
  · rename_i hnil
    rw [List.dropWhile_eq_nil_iff.mpr h, List.isEmpty_iff.mp hnil]
  · rw [List.reverse_append, List.dropWhile_append_of_pos hgap]

theorem readOperand_congr {piece other : List Char} (h : trim piece = trim other) :
    readOperand piece = readOperand other := by
  rw [readOperand, readOperand, h]

theorem isBlankText_append (piece other : List Char) :
    isBlankText (piece ++ other) = (isBlankText piece && isBlankText other) := List.all_append

/-- Blanks before a piece change nothing. -/
theorem pieceLexemes_blank_append {gap : List Char} (h : ∀ c ∈ gap, isBlank c)
    (piece : List Char) : pieceLexemes (gap ++ piece) = pieceLexemes piece := by
  have hgap : isBlankText gap = true := isBlankText_eq_true_iff.mpr h
  rw [pieceLexemes, isBlankText_append, hgap, Bool.true_and,
    readOperand_congr (trim_blank_append h piece), pieceLexemes]

theorem pieceLexemes_append_blank {gap : List Char} (h : ∀ c ∈ gap, isBlank c)
    (piece : List Char) : pieceLexemes (piece ++ gap) = pieceLexemes piece := by
  have hgap : isBlankText gap = true := isBlankText_eq_true_iff.mpr h
  rw [pieceLexemes, isBlankText_append, hgap, Bool.and_true,
    readOperand_congr (trim_append_blank h piece), pieceLexemes]

theorem operatorFree_of_blank {gap : List Char} (h : ∀ c ∈ gap, isBlank c) : OperatorFree gap := by
  intro c hc
  rw [Option.eq_none_iff_forall_ne_some]
  intro op hop
  obtain rfl := Operator.ofChar?_eq_some_iff.mp hop
  have hblank : isBlank op.symbol = true := h _ hc
  rw [isBlank_symbol] at hblank
  contradiction

theorem OperatorFree.append {piece other : List Char} (h : OperatorFree piece)
    (hother : OperatorFree other) : OperatorFree (piece ++ other) := by
  intro c hc
  rcases List.mem_append.mp hc with hc | hc
  · exact h c hc
  · exact hother c hc

/-- Blanks in front of a text say nothing. -/
theorem lexemes_blank_append {gap : List Char} (h : ∀ c ∈ gap, isBlank c) (text : List Char) :
    lexemes (gap ++ text) = lexemes text := by
  have hgap := operatorFree_of_blank h
  induction text using text_induction with
  | piece piece free =>
    rw [lexemes_of_free (hgap.append free), pieceLexemes_blank_append h, lexemes_of_free free]
  | more piece op rest free _ =>
    rw [← List.append_assoc, lexemes_append_operator, lexemes_append_operator,
      lexemes_of_free (hgap.append free), pieceLexemes_blank_append h, lexemes_of_free free]

/-- Blanks behind a text say nothing. -/
theorem lexemes_append_blank {gap : List Char} (h : ∀ c ∈ gap, isBlank c) (text : List Char) :
    lexemes (text ++ gap) = lexemes text := by
  have hgap := operatorFree_of_blank h
  induction text using text_induction with
  | piece piece free =>
    rw [lexemes_of_free (free.append hgap), pieceLexemes_append_blank h, lexemes_of_free free]
  | more piece op rest _ ih =>
    rw [List.append_assoc, List.cons_append, lexemes_append_operator, lexemes_append_operator, ih]

/-- A place in a text next to which blanks say nothing: an end of the text, or a place
beside an operator. -/
def BlanksVanish (front back : List Char) : Prop :=
  front = [] ∨ back = [] ∨ (∃ op : Operator, front.getLast? = some op.symbol) ∨
    ∃ op : Operator, back.head? = some op.symbol

/-- Blanks vanish at the ends of a text and beside operators. -/
theorem lexemes_insert_blank {gap : List Char} (h : ∀ c ∈ gap, isBlank c)
    {front back : List Char} (place : BlanksVanish front back) :
    lexemes (front ++ gap ++ back) = lexemes (front ++ back) := by
  rcases place with rfl | rfl | ⟨op, hop⟩ | ⟨op, hop⟩
  · exact lexemes_blank_append h back
  · rw [List.append_nil, List.append_nil, lexemes_append_blank h]
  · obtain ⟨before, rfl⟩ := List.getLast?_eq_some_iff.mp hop
    simp only [List.append_assoc, List.cons_append, List.nil_append]
    rw [lexemes_append_operator, lexemes_append_operator, lexemes_blank_append h]
  · obtain ⟨rest, rfl⟩ := List.head?_eq_some_iff.mp hop
    rw [lexemes_append_operator, lexemes_append_operator, lexemes_append_blank h]

/-! Scans -/

/-- The scan that ends at the first fault. -/
def Scan.ofLexemes : List Lexeme → Scan
  | [] => ⟨[], none⟩
  | .ok token :: rest => (ofLexemes rest).push token
  | .error fault :: _ => ⟨[], some fault⟩

/-- A piece is scanned to what it says, before all that has been found behind it. -/
theorem scanPiece_ofLexemes (piece : List Char) (found : List Lexeme) :
    scanPiece piece (.ofLexemes found) = .ofLexemes (pieceLexemes piece ++ found) := by
  unfold scanPiece pieceLexemes
  split
  · rfl
  · cases readOperand piece with
    | ok token => rfl
    | error fault => rfl

/-- The scan of a text is made of what it says. -/
theorem scanText_eq_ofLexemes (text : List Char) : scanText text = .ofLexemes (lexemes text) := by
  rw [scanText_eq_scanPieces]
  unfold lexemes
  generalize (pieces text).1 = first
  generalize (pieces text).2 = rest
  induction rest generalizing first with
  | nil => exact scanPiece_ofLexemes first []
  | cons stop rest ih =>
    obtain ⟨op, next⟩ := stop
    rw [scanPieces, ih]
    exact scanPiece_ofLexemes first (.ok (.operator op) :: _)

theorem Scan.lexemes_of_whole {found : List Lexeme} (h : (Scan.ofLexemes found).fault = none) :
    found = (Scan.ofLexemes found).tokens.map .ok := by
  induction found with
  | nil => rfl
  | cons lexeme rest ih =>
    cases lexeme with
    | ok token => exact congrArg (List.cons _) (ih h)
    | error fault => contradiction

/-- A fault of a scan is the first lexeme behind its tokens. -/
theorem Scan.lexemes_of_fault {found : List Lexeme} {fault : Fault}
    (h : (Scan.ofLexemes found).fault = some fault) :
    ∃ rest, found = (Scan.ofLexemes found).tokens.map .ok ++ .error fault :: rest := by
  induction found with
  | nil => contradiction
  | cons lexeme rest ih =>
    cases lexeme with
    | ok token =>
      obtain ⟨more, hmore⟩ := ih h
      exact ⟨more, congrArg (List.cons _) hmore⟩
    | error first =>
      obtain rfl : first = fault := Option.some.inj h
      exact ⟨rest, rfl⟩

/-- The only fault that ends the scan of a text is an unknown symbol. -/
theorem scanText_unknownSymbol {text : List Char} {fault : Fault}
    (h : (scanText text).fault = some fault) : ∃ symbol, fault = .unknownSymbol symbol := by
  rw [scanText_eq_ofLexemes] at h
  obtain ⟨rest, hfound⟩ := Scan.lexemes_of_fault h
  have hreads : Reads text (lexemes text) := reads_iff.mpr rfl
  refine hreads.unknownSymbol ?_
  rw [hfound]
  simp

theorem Scan.exists_lexemes (found : List Lexeme) :
    ∃ rest, found = (Scan.ofLexemes found).tokens.map .ok ++ rest := by
  cases h : (Scan.ofLexemes found).fault with
  | none => exact ⟨[], by rw [List.append_nil]; exact Scan.lexemes_of_whole h⟩
  | some fault =>
    obtain ⟨rest, hrest⟩ := Scan.lexemes_of_fault h
    exact ⟨_, hrest⟩

theorem Scan.ofLexemes_tokens (tokens : List Token) :
    Scan.ofLexemes (tokens.map .ok) = ⟨tokens, none⟩ := by
  induction tokens with
  | nil => rfl
  | cons token rest ih => exact congrArg (Scan.push token) ih

/-- A text has tokens just when everything that it says is a token. -/
theorem tokenize_eq_ok_iff_lexemes {text : String} {tokens : List Token} :
    tokenize text = .ok tokens ↔ lexemes text.toList = tokens.map .ok := by
  rw [tokenize, scanText_eq_ofLexemes]
  generalize lexemes text.toList = found
  constructor
  · intro h
    cases hfault : (Scan.ofLexemes found).fault with
    | some fault =>
      rw [hfault] at h
      contradiction
    | none =>
      rw [hfault] at h
      rw [← Except.ok.inj h]
      exact Scan.lexemes_of_whole hfault
  · rintro rfl
    rw [Scan.ofLexemes_tokens]

/-- A text is tokenized if all its lexemes are tokens, and else has the first fault among
them. -/
theorem tokenize_eq_mapM (text : String) : tokenize text = (lexemes text.toList).mapM id := by
  rw [tokenize, scanText_eq_ofLexemes]
  generalize lexemes text.toList = found
  induction found with
  | nil => rfl
  | cons lexeme rest ih =>
    cases lexeme with
    | error fault => rfl
    | ok token =>
      rw [List.mapM_cons, ← ih, Scan.ofLexemes]
      simp only [Scan.push, id]
      cases (Scan.ofLexemes rest).fault <;> rfl

end InfixCalculator
