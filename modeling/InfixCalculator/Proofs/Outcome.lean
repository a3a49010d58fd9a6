import InfixCalculator.Proofs.Balance
import InfixCalculator.Proofs.Reading

/-!
What the outcome of an evaluation says about the text: an unknown symbol is the first
one and nothing before it was at fault, the two faults of parentheses and the count of
operands are what counting the tokens gives, and an operator lacks operands only where
one stands without an operand at its side or a group is empty.
-/
namespace InfixCalculator

variable {α : Type} (I : Interpretation α)

/-- An operand may end here: at a literal, at a piece that should be one, or at a closing
parenthesis. -/
def endsOperand : Lexeme → Bool
  | .ok (.operand _) | .ok (.operator .rightParen) | .error _ => true
  | .ok (.operator _) => false

def startsOperand : Lexeme → Bool
  | .ok (.operand _) | .ok (.operator .leftParen) | .error _ => true
  | .ok (.operator _) => false

def EndsOperand (front : List Lexeme) : Prop := ∃ lexeme ∈ front.getLast?, endsOperand lexeme

def StartsOperand (back : List Lexeme) : Prop := ∃ lexeme ∈ back.head?, startsOperand lexeme

/-- A binary operator has no operand directly before or behind it, or a group is empty. -/
def Misplaced (found : List Lexeme) : Prop :=
  (∃ (front : List Lexeme) (op : BinaryOperator) (back : List Lexeme),
    found = front ++ .ok (.operator (.binary op)) :: back ∧
      (¬EndsOperand front ∨ ¬StartsOperand back)) ∨
  ∃ front back : List Lexeme,
    found = front ++ .ok (.operator .leftParen) :: .ok (.operator .rightParen) :: back

/-- The outcome of an evaluation, with what it says about the lexemes of the text. -/
inductive Justified (found : List Lexeme) : Except Fault α → Prop where
  | unknownSymbol {tokens : List Token} {symbol : String} {rest : List Lexeme}
      (h : found = tokens.map .ok ++ .error (.unknownSymbol symbol) :: rest)
      (accepted : (Calculator.initial.acceptAll I tokens).answer = .ok ()) :
      Justified found (.error (.unknownSymbol symbol))
  | strayRightParen {front : List Token} {rest : List Lexeme}
      (h : found = front.map .ok ++ rest) (closed : Token.depth front < 0) :
      Justified found (.error .strayRightParen)
  | unclosedLeftParen {tokens : List Token} (h : found = tokens.map .ok)
      (never : ∀ front, front <+: tokens → 0 ≤ Token.depth front)
      (opened : 0 < Token.depth tokens) : Justified found (.error .unclosedLeftParen)
  | operandCount {tokens : List Token} {count : Nat} (h : found = tokens.map .ok)
      (never : ∀ front, front <+: tokens → 0 ≤ Token.depth front)
      (balanced : Token.depth tokens = 0) (hcount : (count : Int) = Token.surplus tokens)
      (other : count ≠ 1) : Justified found (.error (.operandCount count))
  | missingOperand {op : BinaryOperator} (mem : .ok (.operator (.binary op)) ∈ found)
      (h : Misplaced found) : Justified found (.error (.missingOperand (some op.symbol.toString)))
  | value {tokens : List Token} {x : α} (h : found = tokens.map .ok)
      (never : ∀ front, front <+: tokens → 0 ≤ Token.depth front)
      (balanced : Token.depth tokens = 0) (one : Token.surplus tokens = 1) :
      Justified found (.ok x)

namespace Calculator

/-! Where the waiting operators come from -/

theorem mem_closeOperators {operators : List Operator} {operands : List α} {op : Operator}
    (h : op ∈ (closeOperators I operands operators).calculator.operators) : op ∈ operators := by
  induction operators generalizing operands with
  | nil => exact h
  | cons top rest ih =>
    have kept := applyTop_operators I top ⟨operands, rest⟩
    cases top with
    | leftParen => exact List.mem_cons_of_mem _ h
    | binary | rightParen =>
      simp only [closeOperators] at h
      cases happly : (applyTop I _ ⟨operands, rest⟩).answer with
      | error fault =>
        rw [(Run.andThen_of_error happly).2, kept] at h
        exact List.mem_cons_of_mem _ h
      | ok _ =>
        rw [(Run.andThen_of_ok happly).2] at h
        exact List.mem_cons_of_mem _ (ih h)

/-- Only the operator that arrives can be new. -/
theorem mem_acceptOperator {arriving : Operator} {c : Calculator α} {op : BinaryOperator}
    (hok : (acceptOperator I arriving c).answer = .ok ())
    (h : .binary op ∈ (acceptOperator I arriving c).calculator.operators) :
    .binary op ∈ c.operators ∨ arriving = .binary op := by
  have harrival := acceptOperator_arrival I arriving c
  generalize acceptOperator I arriving c = run at harrival h hok
  cases harrival with
  | stray => exact .inl h
  | close => exact .inl (mem_closeOperators I h)
  | push =>
    rcases List.mem_cons.mp h with rfl | h
    · exact .inr rfl
    · exact .inl h
  | reopen =>
    obtain ⟨⟨⟩, -, -, hcalculator⟩ := Run.andThen_eq_ok hok
    rw [hcalculator] at h
    rcases List.mem_cons.mp h with rfl | h
    · exact .inr rfl
    · rcases List.mem_cons.mp h with hparen | h
      · contradiction
      · exact .inl (mem_closeOperators I h)
  | replace =>
    obtain ⟨closed, -, -, hcalculator⟩ := Run.andThen_eq_ok hok
    rw [hcalculator] at h
    rcases List.mem_cons.mp h with rfl | h
    · exact .inr rfl
    · rw [reduceTop_operators] at h
      exact .inl (List.mem_of_mem_tail h)

/-- A binary operator that waits was there before or is one of the tokens. -/
theorem mem_acceptAll {tokens : List Token} {c : Calculator α} {op : BinaryOperator}
    (hok : (acceptAll I tokens c).answer = .ok ())
    (h : .binary op ∈ (acceptAll I tokens c).calculator.operators) :
    .binary op ∈ c.operators ∨ .operator (.binary op) ∈ tokens := by
  induction tokens generalizing c with
  | nil => exact .inl h
  | cons token rest ih =>
    obtain ⟨⟨⟩, hfirst, hrest, hcalculator⟩ := Run.andThen_eq_ok hok
    rw [acceptAll_cons, hcalculator] at h
    rcases ih hrest h with h | h
    · cases token with
      | operand x => exact .inl h
      | operator arriving =>
        rcases mem_acceptOperator I hfirst h with h | rfl
        · exact .inl h
        · exact .inr (List.mem_cons_self)
    · exact .inr (List.mem_cons_of_mem _ h)

/-! Operands at both sides -/

theorem acceptAll_concat (front : List Token) (token : Token) (c : Calculator α) :
    acceptAll I (front ++ [token]) c =
      (acceptAll I front c).andThen fun _ c => accept I token c := by
  rw [acceptAll_append]
  congr 1
  funext _ c
  exact Run.andThen_unit _

/-- If tokens are accepted so are those before them, and the operators have not been used up
and come back. -/
theorem acceptAll_prefix {front back : List Token} {c : Calculator α}
    (hok : (acceptAll I (front ++ back) c).answer = .ok ()) :
    (acceptAll I front c).answer = .ok () ∧
      ((acceptAll I (front ++ back) c).calculator.operators ≠ [] →
        (acceptAll I front c).calculator.operators ≠ []) := by
  rw [acceptAll_append] at hok ⊢
  obtain ⟨⟨⟩, hfront, -, hcalculator⟩ := Run.andThen_eq_ok hok
  refine ⟨hfront, fun hopen hnil => hopen ?_⟩
  rw [hcalculator]
  exact (acceptAll_heaped I back hnil).operators

/-- After an opening parenthesis it lies on top. -/
theorem head_of_leftParen {front : List Token} {c : Calculator α}
    (hok : (acceptAll I (front ++ [.operator .leftParen]) c).answer = .ok ()) :
    (acceptAll I (front ++ [.operator .leftParen]) c).calculator.operators.head? =
      some .leftParen := by
  rw [acceptAll_concat] at hok ⊢
  obtain ⟨⟨⟩, -, haccept, hcalculator⟩ := Run.andThen_eq_ok hok
  rw [hcalculator]
  generalize (acceptAll I front c).calculator = reached at haccept
  have hreached : reached.operators ≠ [] := fun hnil => acceptOperator_nil_ne_ok I _ hnil haccept
  rw [accept, acceptOperator_leftParen I hreached]
  rfl

end Calculator

theorem endsOperand_concat (front : List Token) (token : Token) :
    EndsOperand ((front ++ [token]).map .ok) ↔ endsOperand (.ok token) := by
  simp [EndsOperand]

/-- Where no operand starts, an operand has ended, unless nothing or only an opening
parenthesis stands before. -/
theorem endsOperand_or_opens {front : List Token} {rest : List Lexeme}
    (placed : ¬Misplaced (front.map .ok ++ rest)) (hrest : ¬StartsOperand rest) :
    front = [] ∨ EndsOperand (front.map .ok) ∨
      ∃ before, front = before ++ [.operator .leftParen] := by
  cases front using List.reverseRecOn with
  | nil => exact .inl rfl
  | append_singleton before token =>
    rw [endsOperand_concat]
    match token with
    | .operand x => exact .inr (.inl rfl)
    | .operator .rightParen => exact .inr (.inl rfl)
    | .operator .leftParen => exact .inr (.inr ⟨before, rfl⟩)
    | .operator (.binary op) =>
      refine absurd (.inl ⟨before.map .ok, op, rest, ?_, .inr hrest⟩) placed
      simp

/-- As long as a parenthesis is open, each binary operator that stands between operands
finds the operand before it and leaves room for the one behind it. -/
theorem surplus_of_placed {front : List Token} {rest : List Lexeme}
    (placed : ¬Misplaced (front.map .ok ++ rest))
    (hok : (Calculator.initial.acceptAll I front).answer = .ok ())
    (hopen : (Calculator.initial.acceptAll I front).calculator.operators ≠ []) :
    0 ≤ Token.surplus front ∧ (EndsOperand (front.map .ok) → 1 ≤ Token.surplus front) := by
  -- From the end: whether a token is in its place depends on the one before it.
  induction front using List.reverseRecOn generalizing rest with
  | nil => simp [EndsOperand]
  | append_singleton front token ih =>
    have hsplit : (front ++ [token]).map .ok ++ rest = front.map .ok ++ .ok token :: rest := by
      simp
    rw [hsplit] at placed
    obtain ⟨hfront, hbefore⟩ := Calculator.acceptAll_prefix I hok
    obtain ⟨hnonneg, hended⟩ := ih placed hfront (hbefore hopen)
    rw [endsOperand_concat, Token.surplus_append]
    match token with
    | .operand x =>
      rw [Token.surplus_operand]
      exact ⟨by omega, fun _ => by omega⟩
    | .operator .leftParen =>
      rw [Token.surplus_leftParen]
      exact ⟨by omega, nofun⟩
    | .operator (.binary op) =>
      have hoperand : EndsOperand (front.map .ok) := by
        by_contra hnone
        exact placed (.inl ⟨front.map .ok, op, rest, rfl, .inl hnone⟩)
      have hone := hended hoperand
      rw [Token.surplus_binary]
      exact ⟨by omega, nofun⟩
    | .operator .rightParen =>
      have hstop : ¬StartsOperand (.ok (.operator .rightParen) :: rest) := by
        simp [StartsOperand, startsOperand]
      rcases endsOperand_or_opens placed hstop with rfl | hoperand | ⟨before, rfl⟩
      · exact absurd rfl hopen
      · have hone := hended hoperand
        rw [Token.surplus_rightParen]
        exact ⟨by omega, fun _ => by omega⟩
      · refine absurd (.inr ⟨before.map .ok, rest, ?_⟩) placed
        simp

/-- An operator that lacks operands shows that some token is misplaced. -/
theorem misplaced_of_lacking {front : List Token} {rest : List Lexeme} {op : Option String}
    (hok : (Calculator.initial.acceptAll I front).answer = .ok ())
    (hstuck : (Calculator.initial.acceptAll I front).calculator.Stuck (.missingOperand op))
    (hrest : ¬StartsOperand rest) :
    Misplaced (front.map .ok ++ rest) ∧
      ∃ named : BinaryOperator, op = some named.symbol.toString ∧
        .operator (.binary named) ∈ front := by
  obtain ⟨hsurplus, -⟩ := Calculator.acceptAll_balance I hok
  generalize hreached : (Calculator.initial.acceptAll I front).calculator = reached
    at hstuck hsurplus
  cases hstuck with
  | @lacking named top mem waiting few =>
    constructor
    · by_contra placed
      have hopen : (Calculator.initial.acceptAll I front).calculator.operators ≠ [] := by
        rw [hreached]
        exact List.ne_nil_of_mem mem
      obtain ⟨-, hended⟩ := surplus_of_placed I placed hok hopen
      rcases endsOperand_or_opens placed hrest with rfl | hoperand | ⟨before, rfl⟩
      · rw [← hreached] at waiting
        simp [Run.ok] at waiting
      · have hone := hended hoperand
        rw [Calculator.surplus_initial] at hsurplus
        omega
      · rw [← hreached, Calculator.head_of_leftParen I hok] at waiting
        simp at waiting
    · rw [← hreached] at mem
      rcases Calculator.mem_acceptAll I hok mem with hinitial | hmem
      · simp at hinitial
      · exact ⟨named, rfl, hmem⟩

/-! Counts -/

theorem surplus_acceptAll {tokens : List Token}
    (hok : (Calculator.initial.acceptAll I tokens).answer = .ok ()) :
    (Calculator.initial.acceptAll I tokens).calculator.surplus = Token.surplus tokens := by
  rw [(Calculator.acceptAll_balance I hok).1, Calculator.surplus_initial, Int.zero_add]

theorem openCount_acceptAll {tokens : List Token}
    (hok : (Calculator.initial.acceptAll I tokens).answer = .ok ()) :
    (Calculator.initial.acceptAll I tokens).calculator.openCount = 1 + Token.depth tokens :=
  (Calculator.acceptAll_balance I hok).2

theorem acceptAll_orderly (tokens : List Token) :
    Orderly (Calculator.initial.acceptAll I tokens).calculator.operators :=
  (Calculator.acceptAll_safe I tokens Orderly.nil.leftParen).operators

/-- Where no parenthesis is open any more, one has been closed too many. -/
theorem depth_neg {tokens : List Token}
    (hok : (Calculator.initial.acceptAll I tokens).answer = .ok ())
    (hnil : (Calculator.initial.acceptAll I tokens).calculator.operators = []) :
    Token.depth tokens < 0 := by
  have hcount := openCount_acceptAll I hok
  rw [Calculator.openCount_of_nil hnil] at hcount
  omega

/-- While a parenthesis is open, none has been closed too many. -/
theorem depth_nonneg {tokens : List Token}
    (hok : (Calculator.initial.acceptAll I tokens).answer = .ok ())
    (hopen : (Calculator.initial.acceptAll I tokens).calculator.operators ≠ []) :
    ∀ front, front <+: tokens → 0 ≤ Token.depth front := by
  rintro front ⟨back, rfl⟩
  obtain ⟨hfront, hbefore⟩ := Calculator.acceptAll_prefix I hok
  have hcount := openCount_acceptAll I hfront
  have hpositive := Calculator.openCount_pos (acceptAll_orderly I front) (hbefore hopen)
  omega

/-- At the end of the text, with its whole group closed, the stacks hold what the counts
of its tokens say. -/
structure Closed (tokens : List Token) (last : Calculator α) : Prop where
  never : ∀ front, front <+: tokens → 0 ≤ Token.depth front
  depth : last.openCount = Token.depth tokens
  surplus : last.surplus = Token.surplus tokens
  orderly : Orderly last.operators

/-- A whole group that closes had all its parentheses open in time. -/
theorem closed_of_closeGroup {tokens : List Token}
    (hok : (Calculator.initial.acceptAll I tokens).answer = .ok ())
    (hclose : ((Calculator.initial.acceptAll I tokens).calculator.closeGroup I).answer = .ok ()) :
    Closed tokens ((Calculator.initial.acceptAll I tokens).calculator.closeGroup I).calculator := by
  have hopen : (Calculator.initial.acceptAll I tokens).calculator.operators ≠ [] := by
    intro hnil
    rw [Calculator.closeGroup_of_nil I hnil] at hclose
    contradiction
  have tsurplus := surplus_acceptAll I hok
  have topen := openCount_acceptAll I hok
  obtain ⟨csurplus, copen⟩ := Calculator.closeGroup_balance I hclose
  refine ⟨depth_nonneg I hok hopen, by omega, by omega, ?_⟩
  exact (Calculator.closeGroup_safe I (acceptAll_orderly I tokens)).operators

/-- What is taken from the stacks at the end is what the counts of the tokens justify. -/
theorem Closed.justified {tokens : List Token} {last : Calculator α} (h : Closed tokens last)
    {found : List Lexeme} (hfound : found = tokens.map .ok) :
    Justified I found last.takeValue.answer := by
  have hdepth := h.depth
  have hsurplus := h.surplus
  have horderly := h.orderly
  obtain ⟨operands, operators⟩ := last
  cases operators with
  | cons op rest =>
    have hpositive := Calculator.openCount_pos horderly (by simp)
    exact .unclosedLeftParen hfound h.never (by omega)
  | nil =>
    have hzero : Token.depth tokens = 0 := by
      rw [← hdepth]
      exact Calculator.openCount_of_nil rfl
    have hcount : (operands.length : Int) = Token.surplus tokens := by
      rw [← hsurplus]
      exact (Int.sub_zero _).symm
    match operands with
    | [] => exact .operandCount hfound h.never hzero hcount Nat.zero_ne_one
    | [x] => exact .value hfound h.never hzero hcount.symm
    | x :: y :: more => exact .operandCount hfound h.never hzero hcount (by simp)

/-! Outcomes -/

theorem startsOperand_of_accept {token : Token} {c : Calculator α} {op : Option String}
    (h : (Calculator.accept I token c).answer = .error (.missingOperand op)) (rest : List Lexeme) :
    ¬StartsOperand (.ok token :: rest) := by
  match token with
  | .operand x => contradiction
  | .operator (.binary op) => simp [StartsOperand, startsOperand]
  | .operator .rightParen => simp [StartsOperand, startsOperand]
  | .operator .leftParen =>
    by_cases hnil : c.operators = []
    · simp [Calculator.accept, Calculator.acceptOperator_of_nil I _ hnil, Run.fail] at h
    · rw [Calculator.accept, Calculator.acceptOperator_leftParen I hnil] at h
      contradiction

/-- A fault of the stacks, at a token or at the end of the text. -/
theorem justified_of_stuck {front : List Token} {rest : List Lexeme} {fault : Fault}
    (hok : (Calculator.initial.acceptAll I front).answer = .ok ())
    (hstuck : (Calculator.initial.acceptAll I front).calculator.Stuck fault)
    (hrest : ∀ op, fault = .missingOperand op → ¬StartsOperand rest) :
    Justified I (front.map .ok ++ rest) (.error fault) := by
  cases hstuck with
  | stray hnil => exact .strayRightParen rfl (depth_neg I hok hnil)
  | lacking mem waiting few =>
    obtain ⟨hplaces, named, hnamed, hmem⟩ :=
      misplaced_of_lacking I hok (.lacking mem waiting few) (hrest _ rfl)
    rw [hnamed]
    exact .missingOperand (List.mem_append_left _ (List.mem_map_of_mem hmem)) hplaces

/-- The outcome of every evaluation on a new calculator is justified by the text: by the
first symbol that is unknown, by the counts of its tokens, or by a token without operands
beside it. -/
theorem evaluate_outcome_justified (power : Float → Float → Float) (n : Notation)
    (text : String) :
    ∃ found : List Lexeme, Reads text.toList found ∧
      Justified (n.interpretation power) found (evaluate power n text) := by
  have hreads : Reads text.toList (lexemes text.toList) := reads_iff.mpr rfl
  refine ⟨_, hreads, ?_⟩
  unfold evaluate
  generalize n.interpretation power = I
  have hending := Calculator.evaluate_ending I text .initial
  rw [scanText_eq_ofLexemes] at hending
  generalize lexemes text.toList = found at hreads hending ⊢
  generalize (Calculator.initial.evaluate I text).answer = answer at hending ⊢
  generalize (Calculator.initial.evaluate I text).calculator = last at hending
  cases hending with
  | @token front back token fault htokens hfront htoken =>
    obtain ⟨rest, hfound⟩ := Scan.exists_lexemes found
    rw [htokens] at hfound
    have hsplit : found = front.map .ok ++ .ok token :: (back.map .ok ++ rest) := by
      rw [hfound]
      simp
    rw [hsplit]
    refine justified_of_stuck I hfront ?_ ?_
    · exact Calculator.accept_stuck I (acceptAll_orderly I front) htoken
    · rintro op rfl
      exact startsOperand_of_accept I htoken _
  | @text fault hall hfault =>
    obtain ⟨rest, hfound⟩ := Scan.lexemes_of_fault hfault
    have hmem : .error fault ∈ found := by
      rw [hfound]
      simp
    obtain ⟨symbol, rfl⟩ := hreads.unknownSymbol hmem
    exact .unknownSymbol hfound hall
  | @close fault hall whole hclose =>
    have hfound := Scan.lexemes_of_whole whole
    have hend : ¬StartsOperand [] := by simp [StartsOperand]
    rw [hfound, ← List.append_nil (List.map _ _)]
    refine justified_of_stuck I hall ?_ fun _ _ => hend
    exact Calculator.closeGroup_stuck I (acceptAll_orderly I _) hclose
  | value hall whole hclose hlast =>
    have hfound := Scan.lexemes_of_whole whole
    subst hlast
    exact (closed_of_closeGroup I hall hclose).justified _ hfound

end InfixCalculator
