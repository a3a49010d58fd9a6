import InfixCalculator.Proofs.Arrival
import InfixCalculator.Proofs.Reading

/-!
An accepted text in parentheses, met anywhere in an expression. Its tokens compute its
value and put it down as one operand; what was on the stacks before stays as it was.
-/
namespace InfixCalculator

variable {α : Type} (I : Interpretation α)

/-! The tokens -/

def Token.parenthesized (tokens : List Token) : List Token :=
  .operator .leftParen :: (tokens ++ [.operator .rightParen])

/-- Parentheses around a text are two tokens more. -/
theorem tokenize_parenthesized {text : String} {tokens : List Token}
    (h : tokenize text = .ok tokens) :
    tokenize ("(" ++ text ++ ")") = .ok (Token.parenthesized tokens) := by
  rw [tokenize_eq_ok_iff_lexemes] at h ⊢
  have htext : ("(" ++ text ++ ")").toList = '(' :: (text.toList ++ [')']) := by simp
  calc lexemes ("(" ++ text ++ ")").toList
      = lexemes ('(' :: (text.toList ++ [')'])) := congrArg lexemes htext
    _ = .ok (.operator .leftParen) :: lexemes (text.toList ++ [')']) :=
        lexemes_append_operator [] .leftParen _
    _ = .ok (.operator .leftParen) ::
          (lexemes text.toList ++ .ok (.operator .rightParen) :: lexemes []) :=
        congrArg _ (lexemes_append_operator text.toList .rightParen [])
    _ = (Token.parenthesized tokens).map .ok := by
        have hnil : lexemes [] = [] := rfl
        simp [h, hnil, Token.parenthesized]

/-! The stacks -/

namespace Calculator

/-- A parenthesis opens a group and another one closes it. -/
theorem acceptAll_parenthesized_eq (tokens : List Token) {c : Calculator α}
    (hc : c.operators ≠ []) :
    acceptAll I (Token.parenthesized tokens) c =
      acceptGroup I tokens (c.pushOperator .leftParen) := by
  have hclose : acceptAll I [.operator .rightParen] = closeGroup I := by
    funext c
    rw [acceptAll_cons, accept, acceptOperator_rightParen]
    exact Run.andThen_unit _
  rw [Token.parenthesized, acceptAll_cons, accept, acceptOperator_leftParen I hc,
    Run.andThen_ok, acceptAll_append, hclose, acceptGroup]

/-- A group that is worth an expression puts down its meaning, whatever lies below. -/
theorem acceptAll_parenthesized {n : Nest} {e : Expression} (h : n.program = e.program)
    {c : Calculator α} (hc : c.operators ≠ []) :
    (acceptAll I (Token.parenthesized n.tokens) c).answer = .ok () ∧
      (acceptAll I (Token.parenthesized n.tokens) c).calculator = c.pushOperand (e.fold I) := by
  rw [acceptAll_parenthesized_eq I n.tokens hc]
  have hgroup : Follows (acceptGroup I n.tokens (c.pushOperator .leftParen)) _ c.operators :=
    acceptGroup_follows I n c.operands c.operators
  rw [h, e.execute_program] at hgroup
  obtain ⟨hanswer, hoperands, -, hoperators⟩ := hgroup
  generalize acceptGroup I n.tokens (c.pushOperator .leftParen) = run at *
  obtain ⟨answer, ⟨operands, operators⟩, reductions⟩ := run
  obtain rfl : operators = c.operators := hoperators rfl
  obtain rfl : operands = e.fold I :: c.operands := hoperands
  exact ⟨hanswer, rfl⟩

end Calculator

/-- The parentheses around a text that has an answer make an operand of it: next to any
operators that wait, its tokens are accepted and put down the answer. Around the whole of
a text they change nothing. -/
theorem evaluate_parenthesized {power : Float → Float → Float} {n : Notation} {text : String}
    {x : n.Result} (h : evaluate power n text = .ok x) :
    (∃ tokens, tokenize ("(" ++ text ++ ")") = .ok tokens ∧
      ∀ c : Calculator n.Result, c.operators ≠ [] →
        let run := c.acceptAll (n.interpretation power) tokens
        run.answer = .ok () ∧ run.calculator.operators = c.operators ∧
          run.calculator.operands = x :: c.operands) ∧
    evaluate power n ("(" ++ text ++ ")") = .ok x := by
  obtain ⟨nest, e, htext, hprogram, rfl⟩ :=
    (evaluate_answer_iff (n.interpretation power) text x).mp h
  have htokens := tokenize_parenthesized htext
  constructor
  · refine ⟨_, htokens, fun c hc => ?_⟩
    obtain ⟨hanswer, hcalculator⟩ :=
      Calculator.acceptAll_parenthesized (n.interpretation power) hprogram hc
    dsimp only
    rw [hcalculator]
    exact ⟨hanswer, rfl, rfl⟩
  · obtain ⟨hanswer, hcalculator⟩ :=
      Calculator.acceptAll_parenthesized (n.interpretation power) hprogram
        (c := .initial) (List.cons_ne_nil _ _)
    rw [evaluate, Calculator.evaluate, acceptText_of_tokenize (n.interpretation power) htokens,
      (Run.andThen_of_ok hanswer).1, hcalculator]
    rfl

/-- The inner group takes one side from outside its parentheses, but not from outside the
outer ones. -/
theorem evaluate_parenthesized_stray :
    let x (k : Nat) : Expression := .literal (Numeral.value ⟨k, 0⟩)
    let answer : String :=
      (Expression.node .mul (.node .sub (x 4) (x 3)) (x 2)).fold .operatorLast
    let c : Calculator String := ⟨["left", "over"], [.binary .pow]⟩
    evaluate Platform.power .operatorLast "4*(3-)2" = .ok answer ∧ c.operators ≠ [] ∧
      ∃ tokens, tokenize "(4*(3-)2)" = .ok tokens ∧
        (c.acceptAll .operatorLast tokens).calculator.operands = [answer, "left", "over"] := by
  intro x answer c
  let literal (k : Nat) := Numeral.value ⟨k, 0⟩
  let nest : Nest := .operand (literal 4) (.operator .mul
    (.group (.operand (literal 3) (.operator .sub .done)) (.operand (literal 2) .done)))
  have htext : tokenize "4*(3-)2" = .ok nest.tokens := by
    rw [tokenize, scanText_eq_scanPieces]
    rfl
  have hprogram : nest.program =
      (Expression.node .mul (.node .sub (x 4) (x 3)) (x 2)).program := by
    simp [nest, x, literal, Nest.program, Nest.segments, reference_eq_foldl, Grouping.attach,
      Grouping.waiting, Grouping.join]
  have h : evaluate Platform.power .operatorLast "4*(3-)2" = .ok answer :=
    (evaluate_answer_iff (Notation.operatorLast.interpretation Platform.power) _ _).mpr
      ⟨nest, _, htext, hprogram, rfl⟩
  obtain ⟨⟨tokens, htokens, haccept⟩, -⟩ := evaluate_parenthesized h
  exact ⟨h, List.cons_ne_nil _ _, tokens, htokens, (haccept c (List.cons_ne_nil _ _)).2.2⟩

end InfixCalculator
