import InfixCalculator.Platform
import InfixCalculator.Proofs.Applications
import InfixCalculator.Proofs.Literals
import InfixCalculator.Proofs.Readability
import InfixCalculator.Proofs.Unsigned

/-!
Nothing is lost, doubled or reordered. Read from the bottom, the operands on their stack
spell the literals of the tokens so far, and each operator is applied in one of them or
waits. The written forms of an answer show the same literals and operators.
-/
namespace InfixCalculator

namespace Token

def operand? : Token → Option Float
  | operand x => some x
  | operator _ => none

def binary? : Token → Option BinaryOperator
  | operator (.binary op) => some op
  | _ => none

end Token

def Expression.operators : Expression → List BinaryOperator
  | literal _ => []
  | node op left right => left.operators ++ right.operators ++ [op]

/-! The stacks -/

namespace Calculator

/-- The literals on the operand stack, from its bottom to its top. -/
def literals (c : Calculator Expression) : List Float :=
  c.operands.reverse.flatMap Expression.literals

/-- How often an operator has been applied or waits. -/
def occurrences (op : BinaryOperator) (c : Calculator Expression) : ℕ :=
  (c.operands.flatMap Expression.operators).count op + c.operators.count (.binary op)

@[simp] theorem literals_initial : (initial : Calculator Expression).literals = [] := rfl
@[simp] theorem literals_pushOperand (e : Expression) (c : Calculator Expression) :
    (c.pushOperand e).literals = c.literals ++ e.literals := by
  simp [literals]
@[simp] theorem literals_pushOperator (op : Operator) (c : Calculator Expression) :
    (c.pushOperator op).literals = c.literals := rfl

@[simp] theorem occurrences_initial (op : BinaryOperator) :
    (initial : Calculator Expression).occurrences op = 0 := by
  simp [occurrences]
@[simp] theorem occurrences_pushOperand (op : BinaryOperator) (e : Expression)
    (c : Calculator Expression) :
    (c.pushOperand e).occurrences op = c.occurrences op + e.operators.count op := by
  simp only [occurrences, operands_pushOperand, operators_pushOperand, List.flatMap_cons,
    List.count_append]
  omega
@[simp] theorem occurrences_pushLeftParen (op : BinaryOperator) (c : Calculator Expression) :
    (c.pushOperator .leftParen).occurrences op = c.occurrences op := by
  simp [occurrences]
@[simp] theorem occurrences_pushBinary (op other : BinaryOperator) (c : Calculator Expression) :
    (c.pushOperator (.binary other)).occurrences op = c.occurrences op + [other].count op := by
  simp [occurrences, List.count_cons, Nat.add_assoc]

/-- An operator that is applied to the two topmost operands keeps what they spell. -/
theorem Applies.inventory {c last : Calculator Expression} (h : Applies .trees c last) :
    last.literals = c.literals ∧ ∀ op, last.occurrences op = c.occurrences op := by
  induction h with
  | nothing c => exact ⟨rfl, fun _ => rfl⟩
  | @more op left right below operators last _ ih =>
    let c : Calculator Expression := ⟨below, operators⟩
    have hbefore : ⟨right :: left :: below, .binary op :: operators⟩ =
      ((c.pushOperand left).pushOperand right).pushOperator (.binary op) := rfl
    have hafter : ⟨Interpretation.trees.combine op left right :: below, operators⟩ =
      c.pushOperand (.node op left right) := rfl
    rw [hbefore]
    rw [hafter] at ih
    obtain ⟨hliterals, hoccurrences⟩ := ih
    constructor
    · rw [hliterals]
      simp [Expression.literals]
    · intro other
      rw [hoccurrences other]
      simp only [occurrences_pushOperand, occurrences_pushBinary, Expression.operators,
        List.count_append]
      omega

/-- A token that is accepted is added to the inventory. -/
theorem accept_inventory {token : Token} {c : Calculator Expression}
    (h : (accept .trees token c).answer = .ok ()) :
    (accept .trees token c).calculator.literals = c.literals ++ token.operand?.toList ∧
      ∀ op, (accept .trees token c).calculator.occurrences op =
        c.occurrences op + token.binary?.toList.count op := by
  have haccepts := accept_accepts .trees h
  generalize (accept .trees token c).calculator = last at haccepts ⊢
  cases haccepts with
  | operand x =>
    rw [literals_pushOperand]
    exact ⟨rfl, fun op => occurrences_pushOperand op (.literal x) c⟩
  | leftParen =>
    rw [literals_pushOperator]
    exact ⟨(List.append_nil _).symm, fun op => occurrences_pushLeftParen op c⟩
  | rightParen happlies =>
    obtain ⟨hliterals, hoccurrences⟩ := happlies.inventory
    rw [literals_pushOperator] at hliterals
    simp only [occurrences_pushLeftParen] at hoccurrences
    exact ⟨hliterals.trans (List.append_nil _).symm, hoccurrences⟩
  | @binary op applied happlies =>
    obtain ⟨hliterals, hoccurrences⟩ := happlies.inventory
    rw [literals_pushOperator]
    refine ⟨hliterals.trans (List.append_nil _).symm, fun other => ?_⟩
    rw [occurrences_pushBinary, hoccurrences]
    rfl

theorem filterMap_cons_toList {β γ : Type} (f : β → Option γ) (b : β) (rest : List β) :
    (b :: rest).filterMap f = (f b).toList ++ rest.filterMap f := by
  cases hb : f b <;> simp [hb]

/-- Whatever their order, accepted tokens are all there, the literals as they came. -/
theorem acceptAll_inventory {tokens : List Token} {c : Calculator Expression}
    (h : (acceptAll .trees tokens c).answer = .ok ()) :
    (acceptAll .trees tokens c).calculator.literals =
        c.literals ++ tokens.filterMap Token.operand? ∧
      ∀ op, (acceptAll .trees tokens c).calculator.occurrences op =
        c.occurrences op + (tokens.filterMap Token.binary?).count op := by
  induction tokens generalizing c with
  | nil => simp [Run.ok]
  | cons token rest ih =>
    obtain ⟨⟨⟩, hfirst, hrest, hcalculator⟩ := Run.andThen_eq_ok h
    obtain ⟨fliterals, foccurrences⟩ := accept_inventory hfirst
    obtain ⟨hliterals, hoccurrences⟩ := ih hrest
    rw [acceptAll_cons, hcalculator]
    constructor
    · rw [hliterals, fliterals, List.append_assoc, filterMap_cons_toList]
    · intro op
      rw [hoccurrences op, foccurrences op, filterMap_cons_toList, List.count_append, add_assoc]

/-- The tree of an answer holds the tokens of its text. -/
theorem evaluate_inventory {text : String} {e : Expression}
    (h : (initial.evaluate .trees text).answer = .ok e) :
    ∃ tokens, tokenize text = .ok tokens ∧ e.literals = tokens.filterMap Token.operand? ∧
      ∀ op, e.operators.count op = (tokens.filterMap Token.binary?).count op := by
  obtain ⟨tokens, htext, hgroup, hlast⟩ := evaluate_eq_ok .trees h
  obtain ⟨⟨⟩, haccept, hclose, hcalculator⟩ := Run.andThen_eq_ok hgroup
  obtain ⟨tliterals, toccurrences⟩ := acceptAll_inventory haccept
  obtain ⟨cliterals, coccurrences⟩ := (closeGroup_applies .trees hclose).inventory
  rw [← hcalculator, ← acceptGroup, hlast] at cliterals coccurrences
  refine ⟨tokens, htext, ?_, fun op => ?_⟩
  · rw [tliterals] at cliterals
    simpa [literals] using cliterals
  · have hop := coccurrences op
    rw [toccurrences] at hop
    simpa [occurrences] using hop

end Calculator

/-! The written forms -/

/-- The words of a written form that are no operators: it is cut at its blanks and
parentheses. -/
def literalWords (text : List Char) : List String :=
  ((text.splitOnP (!isPlain ·)).map String.ofList).filter fun word =>
    word ≠ "" && (Operator.ofText? word).isNone

theorem isPlain_space : isPlain ' ' = false := by decide
theorem isPlain_open : isPlain '(' = false := by decide
theorem isPlain_close : isPlain ')' = false := by decide

theorem literalWords_nil : literalWords [] = [] := by
  simp [literalWords, List.splitOnP_nil]

/-- A character that no literal has divides a text between two words. -/
theorem literalWords_cut {c : Char} (hc : isPlain c = false) (before after : List Char) :
    literalWords (before ++ c :: after) = literalWords before ++ literalWords after := by
  rw [literalWords, List.splitOnP_append_cons before after (by simpa using hc), List.map_append,
    List.filter_append]
  rfl

theorem literalWords_plain {text : String} (h : PlainText text)
    (hop : Operator.ofText? text = none) : literalWords text.toList = [text] := by
  have hne : text ≠ "" := fun hnil => h.nonempty (by rw [hnil]; rfl)
  rw [literalWords, List.splitOnP_eq_singleton fun c hc => by simpa using h.plain c hc]
  simp [hne, hop]

theorem literalWords_symbol (op : BinaryOperator) : literalWords [op.symbol] = [] := by
  cases op <;> decide

theorem count_symbol (op other : BinaryOperator) :
    [op.symbol].count other.symbol = [op].count other := by
  cases op <;> cases other <;> rfl

theorem count_delimiter {c : Char} (hc : isPlain c = false) (op : BinaryOperator)
    (rest : List Char) : (c :: rest).count op.symbol = rest.count op.symbol := by
  refine List.count_cons_of_ne ?_
  rintro rfl
  cases op <;> contradiction

/-- A way to write an operation that shows its operator once and its two sides in order. -/
structure Shows (I : Interpretation String) : Prop where
  literal : ∀ x, I.literal x = literalText x
  words : ∀ op left right, literalWords (I.combine op left right).toList =
    literalWords left.toList ++ literalWords right.toList
  symbols : ∀ op left right (other : BinaryOperator),
    (I.combine op left right).toList.count other.symbol =
      left.toList.count other.symbol + right.toList.count other.symbol + [op].count other

namespace Shows

theorem operatorFirst : Shows .operatorFirst := by
  have hwritten (op : BinaryOperator) (left right : String) :
      (Interpretation.operatorFirst.combine op left right).toList =
        [] ++ '(' :: ([op.symbol] ++ ' ' :: (left.toList ++ ' ' :: (right.toList ++ [')']))) :=
    Brackets.operatorFirst.written op left right
  refine ⟨fun _ => rfl, fun op left right => ?_, fun op left right other => ?_⟩
  · rw [hwritten, literalWords_cut isPlain_open, literalWords_nil, List.nil_append,
      literalWords_cut isPlain_space, literalWords_symbol, List.nil_append,
      literalWords_cut isPlain_space, literalWords_cut isPlain_close, literalWords_nil,
      List.append_nil]
  · rw [hwritten, List.nil_append, count_delimiter isPlain_open, List.count_append,
      count_delimiter isPlain_space, List.count_append, count_delimiter isPlain_space,
      List.count_append, count_delimiter isPlain_close, count_symbol, List.count_nil]
    omega

theorem operatorLast : Shows .operatorLast := by
  have hwritten (op : BinaryOperator) (left right : String) :
      (Interpretation.operatorLast.combine op left right).toList =
        [] ++ '(' :: (left.toList ++ ' ' :: (right.toList ++ ' ' :: ([op.symbol] ++ [')']))) :=
    Brackets.operatorLast.written op left right
  refine ⟨fun _ => rfl, fun op left right => ?_, fun op left right other => ?_⟩
  · rw [hwritten, literalWords_cut isPlain_open, literalWords_nil, List.nil_append,
      literalWords_cut isPlain_space, literalWords_cut isPlain_space,
      literalWords_cut isPlain_close, literalWords_symbol, literalWords_nil, List.append_nil,
      List.append_nil]
  · rw [hwritten, List.nil_append, count_delimiter isPlain_open, List.count_append,
      count_delimiter isPlain_space, List.count_append, count_delimiter isPlain_space,
      List.count_append, count_delimiter isPlain_close, count_symbol, List.count_nil]
    omega

end Shows

/-- An unsigned literal is written in letters, digits and points. -/
theorem literalText_chars {x : Float} (h : hasSignBit x = false) :
    ∀ c ∈ (literalText x).toList, c.isAlphanum ∨ c = '.' := by
  rcases literalText_written x with ⟨-, hnan⟩ | ⟨text, hwritten, htext⟩
  · rw [hnan]
    simp
  · have hunsigned : literalText x = text := by
      rw [htext, signed, h]
      rfl
    rw [hunsigned]
    cases hwritten with
    | infinite => simp
    | finite =>
      intro c hc
      rw [String.toList_ofList] at hc
      rcases (Numeral.spells_text _).chars c hc with hdigit | hpoint
      · exact .inl (by simp [Char.isAlphanum, hdigit])
      · exact .inr hpoint

/-- The text of a literal without a sign holds no operator. -/
theorem symbol_notMem_literalText {x : Float} (h : hasSignBit x = false) (op : Operator) :
    op.symbol ∉ (literalText x).toList :=
  fun hmem => symbol_not_alphanum op (literalText_chars h _ hmem)

/-- An unsigned literal is never taken for an operator. -/
theorem ofText?_literalText {x : Float} (h : hasSignBit x = false) :
    Operator.ofText? (literalText x) = none := by
  rw [Option.eq_none_iff_forall_ne_some]
  intro op hop
  unfold Operator.ofText? at hop
  split at hop
  · rename_i c htext
    obtain rfl := Operator.ofChar?_eq_some_iff.mp hop
    exact symbol_notMem_literalText h op (by rw [htext]; simp)
  · contradiction

/-- The written form of a tree shows its literals in order and its operators. -/
theorem Shows.fold {I : Interpretation String} (shows : Shows I) {e : Expression}
    (h : ∀ x ∈ e.literals, hasSignBit x = false) :
    literalWords (e.fold I).toList = e.literals.map literalText ∧
      ∀ op : BinaryOperator, (e.fold I).toList.count op.symbol = e.operators.count op := by
  induction e with
  | literal x =>
    have hx := h x (List.mem_singleton_self x)
    rw [Expression.fold_literal, shows.literal]
    constructor
    · exact literalWords_plain (literalText_plain x) (ofText?_literalText hx)
    · exact fun op => List.count_eq_zero.mpr (symbol_notMem_literalText hx (.binary op))
  | node op left right left_ih right_ih =>
    obtain ⟨lwords, lsymbols⟩ := left_ih fun x hx => h x (List.mem_append_left _ hx)
    obtain ⟨rwords, rsymbols⟩ := right_ih fun x hx => h x (List.mem_append_right _ hx)
    rw [Expression.fold_node]
    constructor
    · rw [shows.words, lwords, rwords, Expression.literals, List.map_append]
    · intro other
      rw [shows.symbols, lsymbols, rsymbols, Expression.operators, List.count_append,
        List.count_append]

/-! Answers -/

/-- No text spells a literal with a sign. -/
theorem unsigned_of_tokens {text : String} {tokens : List Token} (h : tokenize text = .ok tokens) :
    ∀ x ∈ tokens.filterMap Token.operand?, hasSignBit x = false := by
  intro x hx
  obtain ⟨token, htoken, hoperand⟩ := List.mem_filterMap.mp hx
  cases token with
  | operator op => contradiction
  | operand y =>
    obtain rfl : y = x := Option.some.inj hoperand
    have hreads : Reads text.toList (lexemes text.toList) := reads_iff.mpr rfl
    have hmem : .ok (.operand y) ∈ lexemes text.toList := by
      rw [tokenize_eq_ok_iff_lexemes.mp h]
      exact List.mem_map_of_mem htoken
    obtain ⟨numeral, rfl⟩ := hreads.numeral hmem
    exact numeral.hasSignBit_value

/-- Both written forms of an accepted text show the literals of the text in its order and
every operator as often as the text does. -/
theorem written_forms_complete {power : Float → Float → Float} {n : Notation} {text : String}
    {x : n.Result} (h : evaluate power n text = .ok x) :
    ∃ (tokens : List Token) (first last : String), tokenize text = .ok tokens ∧
      evaluate power .operatorFirst text = .ok first ∧
      evaluate power .operatorLast text = .ok last ∧
      ∀ written ∈ [first, last],
        literalWords written.toList = (tokens.filterMap Token.operand?).map literalText ∧
        ∀ op : BinaryOperator, written.toList.count op.symbol =
          (tokens.filterMap Token.binary?).count op := by
  obtain ⟨e, hevery⟩ := exists_tree h
  have htree := hevery .trees
  rw [Expression.fold_trees] at htree
  obtain ⟨tokens, htokens, hliterals, hoperators⟩ := Calculator.evaluate_inventory htree
  have hunsigned : ∀ x ∈ e.literals, hasSignBit x = false := by
    rw [hliterals]
    exact unsigned_of_tokens htokens
  have hshown {I : Interpretation String} (shows : Shows I) :
      literalWords (e.fold I).toList = (tokens.filterMap Token.operand?).map literalText ∧
        ∀ op : BinaryOperator, (e.fold I).toList.count op.symbol =
          (tokens.filterMap Token.binary?).count op := by
    obtain ⟨hwords, hsymbols⟩ := shows.fold hunsigned
    exact ⟨by rw [hwords, hliterals], fun op => by rw [hsymbols, hoperators]⟩
  refine ⟨tokens, e.fold .operatorFirst, e.fold .operatorLast, htokens,
    hevery .operatorFirst, hevery .operatorLast, ?_⟩
  rw [List.forall_mem_cons, List.forall_mem_singleton]
  exact ⟨hshown .operatorFirst, hshown .operatorLast⟩

/-- The product takes its left side from before the minus sign. -/
theorem written_forms_complete_crossed :
    let x (k : Nat) : Float := Numeral.value ⟨k, 0⟩
    (∃ value, evaluate Platform.power .value "2(3)-*4" = .ok value) ∧
    ∃ first last : String, evaluate Platform.power .operatorFirst "2(3)-*4" = .ok first ∧
      evaluate Platform.power .operatorLast "2(3)-*4" = .ok last ∧
      ∀ written ∈ [first, last],
        literalWords written.toList = [x 2, x 3, x 4].map literalText ∧
        ∀ op : BinaryOperator, written.toList.count op.symbol =
          [BinaryOperator.sub, .mul].count op := by
  intro x
  let nest : Nest := .operand (x 2) (.group (.operand (x 3) .done)
    (.operator .sub (.operator .mul (.operand (x 4) .done))))
  let e : Expression := .node .sub (.literal (x 2)) (.node .mul (.literal (x 3)) (.literal (x 4)))
  have htext : tokenize "2(3)-*4" = .ok nest.tokens := by
    rw [tokenize, scanText_eq_scanPieces]
    rfl
  have hprogram : nest.program = e.program := by
    simp [nest, e, Nest.program, Nest.segments, reference_eq_foldl, Grouping.attach,
      Grouping.waiting, Grouping.insert, Grouping.join, BinaryOperator.priority]
  have h := (evaluate_answer_iff (Notation.value.interpretation Platform.power) _ _).mpr
    ⟨nest, e, htext, hprogram, rfl⟩
  obtain ⟨tokens, first, last, htokens, hfirst, hlast, hshown⟩ := written_forms_complete h
  rw [htext] at htokens
  obtain rfl := Except.ok.inj htokens
  exact ⟨⟨_, h⟩, first, last, hfirst, hlast, hshown⟩

end InfixCalculator
