import InfixCalculator.Platform
import InfixCalculator.Proofs.Formula
import InfixCalculator.Proofs.Lexing
import InfixCalculator.Proofs.Meaning
import InfixCalculator.Proofs.Simulation

/-!
Which texts have an answer. There is no check that operands and operators
alternate: a text is accepted when its tokens are a nest whose program leaves one
operand. Every well-formed text is, but others are too. All other texts stop at a
named fault or at the count of their operands.
-/
namespace InfixCalculator

variable {α β γ : Type} (I : Interpretation α)

namespace Calculator

/-- Without operators no group comes to its end, whatever its tokens are. -/
theorem acceptGroup_ne_ok (tokens : List Token) {c : Calculator α} (h : c.operators = []) :
    (acceptGroup I tokens c).answer ≠ .ok () := by
  intro hok
  obtain ⟨-, -, hclose, -⟩ := Run.andThen_eq_ok hok
  rw [closeGroup_of_nil I (acceptAll_heaped I tokens h).operators] at hclose
  contradiction

theorem takeValue_eq_ok {c : Calculator α} {x : α} (h : (takeValue c).answer = .ok x) :
    c = ⟨[x], []⟩ := by
  obtain ⟨operands, operators⟩ := c
  match operators, operands with
  | op :: rest, _ => contradiction
  | [], [] => contradiction
  | [], [y] =>
    obtain rfl : y = x := Except.ok.inj h
    rfl
  | [], y :: z :: more => contradiction

/-- An answer means that the text has tokens, and that they and the end of the text leave
the answer as the only operand and use up all operators. -/
theorem evaluate_eq_ok {text : String} {c : Calculator α} {x : α}
    (h : (c.evaluate I text).answer = .ok x) :
    ∃ tokens, tokenize text = .ok tokens ∧ (acceptGroup I tokens c).answer = .ok () ∧
      (acceptGroup I tokens c).calculator = ⟨[x], []⟩ := by
  have htext : tokenize text = .ok (scanText text.toList).tokens := by
    obtain ⟨⟨⟩, haccept, -⟩ := Run.andThen_eq_ok h
    obtain ⟨⟨⟩, -, hfault, -⟩ := Run.andThen_eq_ok haccept
    rw [tokenize_eq_ok_iff]
    generalize scanText text.toList = s at hfault
    obtain ⟨tokens, fault⟩ := s
    cases fault with
    | none => rfl
    | some fault => contradiction
  rw [evaluate, acceptText_of_tokenize I htext, ← Run.andThen_assoc] at h
  obtain ⟨⟨⟩, hgroup, hvalue, -⟩ := Run.andThen_eq_ok h
  exact ⟨_, htext, hgroup, takeValue_eq_ok hvalue⟩

/-- A closing parenthesis without its open one ends the text as a whole. -/
theorem acceptGroup_chain_ne_ok (n next : Nest) (more : List Nest) :
    (acceptGroup I (n.chain (next :: more)) initial).answer ≠ .ok () := by
  intro h
  rw [Nest.chain, acceptGroup_append] at h
  obtain ⟨⟨⟩, hfirst, hrest, -⟩ := Run.andThen_eq_ok h
  have hgroup := acceptGroup_follows I n [] []
  exact acceptGroup_ne_ok I _ (hgroup.operators_of_ok hfirst) hrest

theorem acceptOperator_nil_ne_ok (op : Operator) {c : Calculator α} (h : c.operators = []) :
    (acceptOperator I op c).answer ≠ .ok () := by
  intro hok
  rw [acceptOperator_of_nil I op h] at hok
  contradiction

/-- An open parenthesis without its closing one keeps what lies below it from the
end of the text. -/
theorem acceptGroup_unclosed_operators (front : List Token) (n : Nest) {c : Calculator α}
    (h : (acceptGroup I (front ++ .operator .leftParen :: n.tokens) c).answer = .ok ()) :
    (acceptGroup I (front ++ .operator .leftParen :: n.tokens) c).calculator.operators ≠ [] := by
  have hcut : acceptGroup I (front ++ .operator .leftParen :: n.tokens) c =
      (acceptAll I front c).andThen fun _ c =>
        (acceptOperator I .leftParen c).andThen fun _ c => acceptGroup I n.tokens c := by
    simp [acceptGroup, acceptAll_append, accept, Run.andThen_assoc]
  rw [hcut] at h ⊢
  obtain ⟨⟨⟩, -, hrest, hcalculator⟩ := Run.andThen_eq_ok h
  rw [hcalculator]
  generalize (acceptAll I front c).calculator = reached at hrest
  have hbelow : reached.operators ≠ [] := by
    intro hnil
    obtain ⟨⟨⟩, hopen, -⟩ := Run.andThen_eq_ok hrest
    exact acceptOperator_nil_ne_ok I _ hnil hopen
  rw [acceptOperator_leftParen I hbelow, Run.andThen_ok] at hrest ⊢
  have hgroup : Follows (acceptGroup I n.tokens (reached.pushOperator .leftParen))
      (execute I n.program reached.operands) reached.operators :=
    acceptGroup_follows I n reached.operands reached.operators
  rw [hgroup.operators_of_ok hrest]
  exact hbelow

end Calculator

/-- The texts with an answer, and the answers. -/
theorem evaluate_answer_iff (text : String) (x : α) :
    (Calculator.initial.evaluate I text).answer = .ok x ↔
      ∃ (n : Nest) (e : Expression), tokenize text = .ok n.tokens ∧
        n.program = e.program ∧ x = e.fold I := by
  constructor
  · intro h
    obtain ⟨tokens, htext, hgroup, hcalculator⟩ := Calculator.evaluate_eq_ok I h
    rcases Nest.exists_chain_or_unclosed tokens with ⟨n, more, rfl⟩ | ⟨front, n, rfl⟩
    · cases more with
      | nil =>
        obtain ⟨hanswer, -⟩ := evaluate_of_nest I (n := n) htext
        rw [hanswer] at h
        obtain ⟨e, hprogram, hx⟩ := (execute_answer_iff I n.program x).mp h
        exact ⟨n, e, htext, hprogram, hx⟩
      | cons next more => exact absurd hgroup (Calculator.acceptGroup_chain_ne_ok I n next more)
    · have hoperators := congrArg Calculator.operators hcalculator
      exact absurd hoperators (Calculator.acceptGroup_unclosed_operators I front n hgroup)
  · rintro ⟨n, e, htext, hprogram, hx⟩
    obtain ⟨hanswer, -⟩ := evaluate_of_nest I htext
    rw [hanswer]
    exact (execute_answer_iff I n.program x).mpr ⟨e, hprogram, hx⟩

/-- An answer in any notation is the meaning of a tree, and so is the answer in every other
interpretation. The reductions on the way are those at the nodes of the tree. -/
theorem exists_tree_reductions {power : Float → Float → Float} {n : Notation} {text : String}
    {x : n.Result} (h : evaluate power n text = .ok x) :
    ∃ e : Expression, ∀ {β : Type} (I : Interpretation β),
      (Calculator.initial.evaluate I text).answer = .ok (e.fold I) ∧
        (Calculator.initial.evaluate I text).reductions = e.reductions I := by
  obtain ⟨nest, e, htext, hprogram, -⟩ :=
    (evaluate_answer_iff (n.interpretation power) text x).mp h
  refine ⟨e, fun I => ⟨?_, ?_⟩⟩
  · exact (evaluate_answer_iff I text _).mpr ⟨nest, e, htext, hprogram, rfl⟩
  · obtain ⟨-, hreductions, -⟩ := evaluate_of_nest I htext
    rw [hreductions, hprogram, e.execute_program]

theorem exists_tree {power : Float → Float → Float} {n : Notation} {text : String}
    {x : n.Result} (h : evaluate power n text = .ok x) :
    ∃ e : Expression, ∀ {β : Type} (I : Interpretation β),
      (Calculator.initial.evaluate I text).answer = .ok (e.fold I) := by
  obtain ⟨e, hevery⟩ := exists_tree_reductions h
  exact ⟨e, fun I => (hevery I).1⟩

namespace Calculator

/-- The tokens of a text, and its fault if it has one, leave an orderly stack orderly. -/
theorem acceptText_safe (text : List Char) {c : Calculator α} (h : Orderly c.operators) :
    (acceptText I text c).Safe := by
  have hscan := scanPieces_named (pieces text).1 (pieces text).2
  rw [← scanText_eq_scanPieces] at hscan
  have haccept := acceptAll_safe I (scanText text).tokens h
  unfold acceptText
  refine haccept.andThen fun _ _ => ?_
  cases hfault : (scanText text).fault with
  | none => exact .ok haccept.operators _
  | some fault => exact .fail haccept.operators (hscan fault hfault)

/-- No answer is taken if a parenthesis is open or the operands are not one. -/
theorem takeValue_fault {c : Calculator α} {fault : Fault}
    (h : (takeValue c).answer = .error fault) :
    fault = .unclosedLeftParen ∨ ∃ found ≠ 1, fault = .operandCount found := by
  obtain ⟨operands, operators⟩ := c
  match operators, operands with
  | op :: rest, _ => exact .inl (Except.error.inj h).symm
  | [], [] => exact .inr ⟨0, by decide, (Except.error.inj h).symm⟩
  | [], [x] => contradiction
  | [], x :: y :: more => exact .inr ⟨more.length + 2, by omega, (Except.error.inj h).symm⟩

/-- From an orderly stack, the only fault without a name is the operand count. -/
theorem evaluate_fault (text : String) {c : Calculator α} (h : Orderly c.operators)
    {fault : Fault} (hfault : (c.evaluate I text).answer = .error fault) :
    fault.kind?.isSome ∨ ∃ found ≠ 1, fault = .operandCount found := by
  have htext := acceptText_safe I text.toList h
  have hclosed := htext.andThen fun _ _ => closeGroup_safe I htext.operators
  rw [evaluate, ← Run.andThen_assoc] at hfault
  rcases Run.andThen_eq_error hfault with hfault | ⟨_, -, hfault⟩
  · exact .inl (hclosed.named fault hfault)
  · rcases takeValue_fault hfault with rfl | hcount
    · exact .inl rfl
    · exact .inr hcount

end Calculator

/-- A text has an answer just when its parentheses match and the program of its
groups is the program of some expression, which is then the meaning of the text.
Any other text stops at a named fault or at the count of its operands. -/
theorem evaluate_accepts_iff (power : Float → Float → Float) (n : Notation) (text : String) :
    (∀ x, evaluate power n text = .ok x ↔
      ∃ (nest : Nest) (e : Expression), tokenize text = .ok nest.tokens ∧
        nest.program = e.program ∧ x = e.meaning power n) ∧
    ((∃ x, evaluate power n text = .ok x) ∨
      ∃ fault, evaluate power n text = .error fault ∧
        (fault.kind?.isSome ∨ ∃ found ≠ 1, fault = .operandCount found)) := by
  refine ⟨fun x => ?_, ?_⟩
  · simp only [← Expression.fold_interpretation]
    exact evaluate_answer_iff (n.interpretation power) text x
  cases hanswer : evaluate power n text with
  | ok x => exact .inl ⟨x, rfl⟩
  | error fault =>
    have hnamed :=
      Calculator.evaluate_fault (n.interpretation power) text Orderly.nil.leftParen hanswer
    exact .inr ⟨fault, rfl, hnamed⟩

/-- The sum takes its left side from outside its parentheses. -/
theorem evaluate_accepts_stray_sum :
    (∀ n, ∃ x, evaluate Platform.power n "1(+2)" = .ok x) ∧
      ¬∃ f : Formula, tokenize "1(+2)" = .ok f.tokens := by
  let one := Numeral.value ⟨1, 0⟩
  let two := Numeral.value ⟨2, 0⟩
  let nest : Nest := .operand one (.group (.operator .add (.operand two .done)) .done)
  have htext : tokenize "1(+2)" = .ok nest.tokens := by
    rw [tokenize, scanText_eq_scanPieces]
    rfl
  constructor
  · intro n
    let sum : Expression := .node .add (.literal one) (.literal two)
    have hprogram : nest.program = sum.program := by
      simp [nest, sum, Nest.program, Nest.segments, reference_eq_foldl, Grouping.attach,
        Grouping.waiting, Grouping.join]
    exact ⟨_, (evaluate_answer_iff (n.interpretation Platform.power) _ _).mpr
      ⟨nest, sum, htext, hprogram, rfl⟩⟩
  · rintro ⟨f, hf⟩
    rw [htext] at hf
    have htokens := Except.ok.inj hf
    cases f with
    | single atom => cases atom <;> simp [nest, Formula.tokens, Atom.tokens] at htokens
    | chain first op rest => cases first <;> simp [nest, Formula.tokens, Atom.tokens] at htokens

end InfixCalculator
