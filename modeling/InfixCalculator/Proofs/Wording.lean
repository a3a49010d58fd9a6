import InfixCalculator.Proofs.Conversation
import InfixCalculator.Proofs.Outcome
import InfixCalculator.Proofs.Readability

/-!
What answers and messages are made of. Every answer consists of printed characters, and
so does every message except for the symbol that it quotes, which is a piece of the
expression.
-/
namespace InfixCalculator

/-- A character that takes a place on a line of its own ink or as a space. -/
def isPrinted (c : Char) : Bool := ' ' ≤ c && c ≤ '~'

def Printed (text : List Char) : Prop := ∀ c ∈ text, isPrinted c

instance (text : List Char) : Decidable (Printed text) :=
  List.decidableBAll (isPrinted · = true) text

/-! Answers -/

/-- The characters of answers: letters and digits, the space, and the signs of arithmetic. -/
def isAnswerChar (c : Char) : Bool :=
  c.isAlphanum || c ∈ [' ', '.', '+', '-', '*', '/', '^', '(', ')']

theorem isAnswerChar_of_isDigit {c : Char} (h : c.isDigit) : isAnswerChar c := by
  simp [isAnswerChar, Char.isAlphanum, h]

theorem isAnswerChar_symbol (op : Operator) : isAnswerChar op.symbol := by
  cases op with
  | binary op => cases op <;> decide
  | leftParen => decide
  | rightParen => decide

theorem isPrinted_of_isAnswerChar {c : Char} (h : isAnswerChar c) : isPrinted c := by
  rw [isAnswerChar, Bool.or_eq_true, decide_eq_true_eq] at h
  rcases h with halphanum | hsign
  · delta Char.isAlphanum Char.isAlpha Char.isUpper Char.isLower Char.isDigit at halphanum
    simp only [Bool.or_eq_true, Bool.and_eq_true, decide_eq_true_eq] at halphanum
    simp only [isPrinted, Bool.and_eq_true, decide_eq_true_eq, Char.le_def]
    rcases halphanum with (⟨low, high⟩ | ⟨low, high⟩) | ⟨low, high⟩ <;>
      exact ⟨UInt32.le_trans (by decide) low, UInt32.le_trans high (by decide)⟩
  · have hsigns : [' ', '.', '+', '-', '*', '/', '^', '(', ')'].all isPrinted := by decide
    exact List.all_eq_true.mp hsigns c hsign

def AnswerChars (text : List Char) : Prop := ∀ c ∈ text, isAnswerChar c

instance (text : List Char) : Decidable (AnswerChars text) :=
  List.decidableBAll (isAnswerChar · = true) text

namespace AnswerChars

variable {text other : List Char}

theorem printed (h : AnswerChars text) : Printed text :=
  fun c hc => isPrinted_of_isAnswerChar (h c hc)

theorem nil : AnswerChars [] := nofun

theorem cons {c : Char} (hc : isAnswerChar c) (h : AnswerChars text) : AnswerChars (c :: text) :=
  List.forall_mem_cons.mpr ⟨hc, h⟩

theorem append (h : AnswerChars text) (h' : AnswerChars other) : AnswerChars (text ++ other) :=
  List.forall_mem_append.mpr ⟨h, h'⟩

theorem subset (h : AnswerChars other) (hsub : text ⊆ other) : AnswerChars text :=
  fun c hc => h c (hsub hc)

theorem toDigits (n : Nat) : AnswerChars (Nat.toDigits 10 n) := fun _ hc =>
  isAnswerChar_of_isDigit (Nat.isDigit_of_mem_toDigits (by decide) (by decide) hc)

theorem signed {text : String} (h : AnswerChars text.toList) (x : Float) :
    AnswerChars (signed x text).toList := forall_mem_signed (by decide) h x

theorem numeral (n : Numeral) : AnswerChars n.text := by
  intro c hc
  rcases n.spells_text.chars c hc with hdigit | rfl
  · exact isAnswerChar_of_isDigit hdigit
  · decide

theorem pointText (d : Decimal) : AnswerChars (pointText d).toList := by
  have htext : AnswerChars (String.ofList d.numeral.text).toList := by
    rw [String.toList_ofList]
    exact numeral d.numeral
  unfold InfixCalculator.pointText
  dsimp only
  split
  · rw [String.toList_append]
    exact append htext (by decide +kernel)
  · exact htext

theorem exponentText (d : Decimal) : AnswerChars (exponentText d).toList := by
  have hdigits : AnswerChars d.digits := toDigits _
  simp only [InfixCalculator.exponentText, String.toList_append, String.toList_ofList]
  refine append (append (append ?first ?fraction) ?mark) ?size
  case first => exact hdigits.subset (List.take_subset _ _)
  case fraction =>
    have htail := hdigits.subset (List.tail_sublist _).subset
    split
    · exact nil
    · exact cons (by decide) htail
  case mark => split <;> decide +kernel
  case size =>
    split
    · exact cons (by decide) (toDigits _)
    · exact toDigits _

theorem answerText (x : Float) : AnswerChars (answerText x).toList := by
  unfold InfixCalculator.answerText
  split
  · decide +kernel
  · exact signed (by decide +kernel) x
  · dsimp only
    split
    · exact (pointText _).signed x
    · exact (exponentText _).signed x

theorem literalText (x : Float) : AnswerChars (literalText x).toList := by
  unfold InfixCalculator.literalText
  split
  · decide +kernel
  · exact signed (by decide +kernel) x
  · refine signed ?_ x
    rw [String.toList_ofList]
    exact numeral _

/-- What an interpretation makes of an expression has the characters of answers if its
literals have and combining keeps that. -/
theorem fold {I : Interpretation String} (hliteral : ∀ x, AnswerChars (I.literal x).toList)
    (hcombine : ∀ op left right, AnswerChars left.toList → AnswerChars right.toList →
      AnswerChars (I.combine op left right).toList) (e : Expression) :
    AnswerChars (e.fold I).toList := by
  induction e with
  | literal x => exact hliteral x
  | node op left right left_ih right_ih => exact hcombine op _ _ left_ih right_ih

/-- A written form has answer characters only, if its brackets have. -/
theorem written {I : Interpretation String} (brackets : Brackets I)
    (hlead : ∀ op, AnswerChars (brackets.lead op))
    (htrail : ∀ op, AnswerChars (brackets.trail op)) (e : Expression) :
    AnswerChars (e.fold I).toList := by
  refine fold (fun x => ?_) (fun op left right hleft hright => ?_) e
  · rw [brackets.literal]
    exact literalText x
  · rw [brackets.written]
    exact cons (by decide) (append (hlead op) (append hleft (cons (by decide)
      (append hright (append (htrail op) (cons (by decide) nil))))))

theorem shown (power : Float → Float → Float) {n : Notation} (e : Expression) :
    AnswerChars (n.shown (e.fold (n.interpretation power))).toList := by
  have hsymbol (op : BinaryOperator) : isAnswerChar op.symbol := isAnswerChar_symbol (.binary op)
  cases n with
  | value => exact answerText _
  | operatorFirst =>
    exact written .operatorFirst (fun op => cons (hsymbol op) (cons (by decide) nil))
      (fun _ => nil) e
  | operatorLast =>
    exact written .operatorLast (fun _ => nil)
      (fun op => cons (by decide) (cons (hsymbol op) nil)) e

end AnswerChars

/-! Quoted answers -/

theorem isPrintable_of_isPrinted {c : Char} (h : isPrinted c) : isPrintable c := by
  simp only [isPrinted, Bool.and_eq_true, decide_eq_true_eq, Char.le_def,
    UInt32.le_iff_toNat_le] at h
  have hlow : 0x20 ≤ c.toNat := h.1
  have hhigh : c.toNat < 0x7f := Nat.lt_succ_of_le h.2
  simp [isPrintable, hlow, hhigh]

/-- An answer has nothing in it to escape. -/
theorem quotedChar_of_isAnswerChar {c : Char} (h : isAnswerChar c) : quotedChar '\'' c = [c] := by
  have hother {d : Char} (hd : ¬isAnswerChar d) : c ≠ d := fun heq => hd (heq ▸ h)
  have hprintable : isPrintable c := isPrintable_of_isPrinted (isPrinted_of_isAnswerChar h)
  have hmark : c ≠ '\'' := hother (by decide)
  have hescape : c ≠ '\\' := hother (by decide)
  have hfeed : c ≠ '\n' := hother (by decide)
  have hreturn : c ≠ '\r' := hother (by decide)
  have htab : c ≠ '\t' := hother (by decide)
  simp [quotedChar, hmark, hescape, hfeed, hreturn, htab, hprintable]

/-- A text of answer characters is quoted as it stands, in single quotes. -/
theorem quoted_of_answerChars {text : String} (h : AnswerChars text.toList) :
    quoted text = "'" ++ text ++ "'" := by
  have hmark : quoteMark text.toList = '\'' := by
    have hfree : '\'' ∉ text.toList := fun hmem => absurd (h _ hmem) (by decide)
    simp [quoteMark, hfree]
  have hchars : text.toList.flatMap (quotedChar '\'') = text.toList := by
    rw [List.flatMap_congr fun c hc => quotedChar_of_isAnswerChar (h c hc)]
    exact List.flatMap_singleton' _
  rw [quoted, hmark, hchars]
  simp [← String.toList_inj]

section

variable {power : Float → Float → Float} {n : Notation} {text : String}

/-- The answer to a text, as it is shown. -/
theorem answerChars_of_answer {x : n.Result} (h : evaluate power n text = .ok x) :
    AnswerChars (n.shown x).toList := by
  obtain ⟨-, e, -, -, rfl⟩ := (evaluate_answer_iff (n.interpretation power) text x).mp h
  exact AnswerChars.shown power e

/-- An answer can be printed as it is, on one line. -/
theorem printed_of_answer {x : n.Result} (h : evaluate power n text = .ok x) :
    Printed (n.shown x).toList := (answerChars_of_answer h).printed

end

/-! Messages -/

theorem Fault.message_ne_empty (fault : Fault) : fault.message ≠ "" := by
  unfold message
  split <;> simp

/-- A message consists of printed characters and those of the piece of text that the
fault is about. -/
theorem Fault.message_chars {fault : Fault} {c : Char} (h : c ∈ fault.message.toList) :
    isPrinted c ∨ ∃ detail ∈ fault.detail?, c ∈ detail.toList := by
  have hquote : Printed "'".toList := by decide +kernel
  cases fault with
  | strayRightParen | unclosedLeftParen =>
    exact .inl ((by decide +kernel : Printed (message _).toList) c h)
  | unknownSymbol symbol =>
    have hfront : Printed "Unknown symbol: '".toList := by decide +kernel
    unfold message at h
    simp only [String.toList_append, List.mem_append] at h
    rcases h with (h | h) | h
    · exact .inl (hfront c h)
    · exact .inr ⟨symbol, rfl, h⟩
    · exact .inl (hquote c h)
  | missingOperand op =>
    cases op with
    | none => exact .inl ((by decide +kernel : Printed (message _).toList) c h)
    | some op =>
      have hfront : Printed "Insufficient operands for '".toList := by decide +kernel
      unfold message at h
      simp only [String.toList_append, List.mem_append] at h
      rcases h with (h | h) | h
      · exact .inl (hfront c h)
      · exact .inr ⟨op, rfl, h⟩
      · exact .inl (hquote c h)
  | parenthesisApplied op =>
    have hfront : Printed "Parenthesis '".toList := by decide +kernel
    have hback : Printed "' cannot be applied as a binary operator".toList := by decide +kernel
    unfold message at h
    simp only [String.toList_append, List.mem_append] at h
    rcases h with (h | h) | h
    · exact .inl (hfront c h)
    · obtain rfl : c = op.symbol := by simpa using h
      exact .inl (isPrinted_of_isAnswerChar (isAnswerChar_symbol op))
    · exact .inl (hback c h)
  | operandCount found =>
    have hfront : Printed "Expected exactly one operand after evaluation, found ".toList := by
      decide +kernel
    unfold message at h
    simp only [String.toList_append, List.mem_append] at h
    rcases h with h | h
    · exact .inl (hfront c h)
    · exact .inl ((AnswerChars.toDigits found).printed c (by simpa using h))

theorem mem_of_mem_trim {text : List Char} {c : Char} (h : c ∈ trim text) : c ∈ text := by
  obtain ⟨front, back, -, -, htext⟩ := exists_trim text
  rw [htext]
  simp [h]

/-- The symbol of a fault is a piece of the text. -/
theorem Reads.symbol_subset {text : List Char} {found : List Lexeme} (h : Reads text found)
    {symbol : String} (hfault : .error (.unknownSymbol symbol) ∈ found) :
    symbol.toList ⊆ text := by
  have hpieces {piece : List Char} {lexemes : List Lexeme} (hpiece : PieceReads piece lexemes)
      (hmem : .error (.unknownSymbol symbol) ∈ lexemes) : symbol.toList ⊆ piece := by
    cases hpiece with
    | blank => simp at hmem
    | operand => simp at hmem
    | unknown =>
      obtain rfl : symbol = String.ofList (trim piece) := by simpa using hmem
      rw [String.toList_ofList]
      exact fun _ => mem_of_mem_trim
  induction h with
  | last _ hpiece => exact hpieces hpiece hfault
  | more _ hpiece _ ih =>
    rcases List.mem_append.mp hfault with hfault | hfault
    · exact List.subset_append_of_subset_left _ (hpieces hpiece hfault)
    · exact List.subset_append_of_subset_right _
        (List.subset_cons_of_subset _ (ih (by simpa using hfault)))

/-- Stacks that are stuck name no more than an operator. -/
theorem Calculator.Stuck.detail_printed {α : Type} {c : Calculator α} {fault : Fault}
    (h : Stuck c fault) : ∀ detail ∈ fault.detail?, Printed detail.toList := by
  cases h with
  | stray => simp [Fault.detail?]
  | @lacking op =>
    intro detail hdetail
    obtain rfl : op.symbol.toString = detail := by simpa [Fault.detail?] using hdetail
    simpa using (AnswerChars.nil.cons (isAnswerChar_symbol (.binary op))).printed

/-- What a fault of a text is about is an operator, or an unknown symbol, which is a piece of
the text. -/
theorem evaluate_detail {power : Float → Float → Float} {n : Notation} {text : String}
    {fault : Fault} (h : evaluate power n text = .error fault) :
    ∀ detail ∈ fault.detail?, Printed detail.toList ∨
      (fault = .unknownSymbol detail ∧ detail.toList ⊆ text.toList) := by
  have hreads : Reads text.toList (lexemes text.toList) := reads_iff.mpr rfl
  unfold evaluate at h
  generalize n.interpretation power = I at h
  have hending := Calculator.evaluate_ending I text .initial
  rw [scanText_eq_ofLexemes, h] at hending
  generalize (Calculator.initial.evaluate I text).calculator = last at hending
  generalize hanswer : Except.error fault = answer at hending
  cases hending with
  | token _ _ htoken =>
    obtain rfl := Except.error.inj hanswer
    have hstuck := Calculator.accept_stuck I (acceptAll_orderly I _) htoken
    exact fun detail hdetail => .inl (hstuck.detail_printed detail hdetail)
  | text _ hfault =>
    obtain rfl := Except.error.inj hanswer
    obtain ⟨rest, hfound⟩ := Scan.lexemes_of_fault hfault
    have hmem : .error fault ∈ lexemes text.toList := by
      rw [hfound]
      simp
    obtain ⟨symbol, rfl⟩ := hreads.unknownSymbol hmem
    intro detail hdetail
    obtain rfl : symbol = detail := by simpa [Fault.detail?] using hdetail
    exact .inr ⟨rfl, hreads.symbol_subset hmem⟩
  | close _ _ hclose =>
    obtain rfl := Except.error.inj hanswer
    have hstuck := Calculator.closeGroup_stuck I (acceptAll_orderly I _) hclose
    exact fun detail hdetail => .inl (hstuck.detail_printed detail hdetail)
  | value =>
    rcases Calculator.takeValue_fault hanswer.symm with rfl | ⟨_, -, rfl⟩ <;>
      simp [Fault.detail?]

/-- Whatever stands in a message without being printed stood in the expression. -/
theorem message_chars_of_fault {power : Float → Float → Float} {n : Notation} {text : String}
    {fault : Fault} (h : evaluate power n text = .error fault) {c : Char}
    (hc : c ∈ fault.message.toList) :
    isPrinted c ∨ c ∈ text.toList := by
  rcases Fault.message_chars hc with hprinted | ⟨detail, hdetail, hmem⟩
  · exact .inl hprinted
  · rcases evaluate_detail h detail hdetail with hprinted | ⟨-, hsub⟩
    · exact .inl (hprinted c hmem)
    · exact .inr (hsub hmem)

end InfixCalculator
