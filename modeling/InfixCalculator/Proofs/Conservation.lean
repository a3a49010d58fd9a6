import InfixCalculator.Platform
import InfixCalculator.Proofs.Outcome

/-!
What the tokens so far say about the sizes of the stacks, at every place of a token
sequence. Before a literal of a well-formed expression stand as many operands as binary
operators, so that behind it there is one operand more than operators that wait.
-/
namespace InfixCalculator

variable {α : Type} (I : Interpretation α)

/-! Literals of a well-formed expression -/

mutual
theorem Atom.surplus_tokens (a : Atom) : Token.surplus a.tokens = 1 := by
  cases a with
  | literal x => rfl
  | parens inner =>
    have hinner := inner.surplus_tokens
    rw [Atom.tokens, Token.surplus_cons, Token.surplus_append, hinner]
    rfl
/-- An expression has one operand more than it has binary operators. -/
theorem Formula.surplus_tokens (f : Formula) : Token.surplus f.tokens = 1 := by
  cases f with
  | single atom => exact atom.surplus_tokens
  | chain first op rest =>
    have hfirst := first.surplus_tokens
    have hrest := rest.surplus_tokens
    rw [Formula.tokens, Token.surplus_append, Token.surplus_cons, hfirst, hrest]
    rfl
end

/-- A literal stands on one side of an operator. -/
theorem operand_beside {left right front back : List Token} {op : Operator} {x : Float}
    (h : left ++ .operator op :: right = front ++ .operand x :: back) :
    (∃ between, left = front ++ .operand x :: between) ∨
      ∃ between, front = left ++ .operator op :: between ∧
        right = between ++ .operand x :: back := by
  rcases List.append_eq_append_iff.mp h with ⟨between, rfl, hright⟩ | ⟨between, rfl, hback⟩
  · cases between with
    | nil => simp at hright
    | cons token between =>
      obtain ⟨rfl, rfl⟩ := List.cons.inj hright
      exact .inr ⟨between, rfl, rfl⟩
  · cases between with
    | nil => simp at hback
    | cons token between =>
      obtain ⟨rfl, -⟩ := List.cons.inj hback
      exact .inl ⟨between, rfl⟩

mutual
/-- Before each literal of an atom as many operators as operands have come. -/
theorem Atom.surplus_before {a : Atom} {front back : List Token} {x : Float}
    (h : a.tokens = front ++ .operand x :: back) : Token.surplus front = 0 := by
  cases a with
  | literal y =>
    cases front with
    | nil => rfl
    | cons token front => simp [Atom.tokens] at h
  | parens inner =>
    have hopen : [] ++ .operator .leftParen :: (inner.tokens ++ [.operator .rightParen]) =
        front ++ .operand x :: back := h
    rcases operand_beside hopen with ⟨between, hnil⟩ | ⟨inside, rfl, hinside⟩
    · simp at hnil
    · rcases operand_beside hinside with ⟨between, hinner⟩ | ⟨between, -, hnil⟩
      · have hzero := inner.surplus_before hinner
        rw [List.nil_append, Token.surplus_cons, hzero]
        rfl
      · simp at hnil
/-- Before each literal of an expression stand as many operands as binary operators. -/
theorem Formula.surplus_before {f : Formula} {front back : List Token} {x : Float}
    (h : f.tokens = front ++ .operand x :: back) : Token.surplus front = 0 := by
  cases f with
  | single atom => exact atom.surplus_before h
  | chain first op rest =>
    rcases operand_beside h with ⟨between, hfirst⟩ | ⟨between, rfl, hrest⟩
    · exact first.surplus_before hfirst
    · have hzero := rest.surplus_before hrest
      rw [Token.surplus_append, Token.surplus_cons, first.surplus_tokens, hzero]
      rfl
end

/-- The tokens of an expression are accepted. -/
theorem Formula.acceptAll_tokens (f : Formula) :
    (Calculator.initial.acceptAll I f.tokens).answer = .ok () := by
  have hgroup := Calculator.acceptGroup_follows I f.nest [] []
  rw [f.program_nest, f.tokens_nest, f.tree.execute_program] at hgroup
  obtain ⟨⟨⟩, haccept, -⟩ := Run.andThen_eq_ok hgroup.answer
  exact haccept

/-! The law of the stacks -/

/-- On a new calculator, the law holds after every token of a sequence that is accepted.
Every expression is, and after each of its literals there is one operand more than binary
operators that wait. -/
theorem tokens_conserved :
    (∀ tokens, (Calculator.initial.acceptAll I tokens).answer = .ok () →
      ∀ front, front <+: tokens →
        let run := Calculator.initial.acceptAll I front
        run.answer = .ok () ∧ run.calculator.surplus = Token.surplus front ∧
          run.calculator.openCount = 1 + Token.depth front) ∧
    ∀ (f : Formula) (front back : List Token) (x : Float),
      f.tokens = front ++ .operand x :: back →
        let run := Calculator.initial.acceptAll I (front ++ [.operand x])
        run.answer = .ok () ∧ run.calculator.operands.length =
          run.calculator.operators.countP (fun op => !op.isParenthesis) + 1 := by
  constructor
  · rintro tokens h front ⟨back, rfl⟩
    have hfront := (Calculator.acceptAll_prefix I h).1
    exact ⟨hfront, surplus_acceptAll I hfront, openCount_acceptAll I hfront⟩
  · intro f front back x hf
    have htokens : f.tokens = (front ++ [.operand x]) ++ back := by
      rw [hf, List.append_assoc, List.singleton_append]
    have hrun := (Calculator.acceptAll_prefix I (htokens ▸ f.acceptAll_tokens I)).1
    have hsurplus := surplus_acceptAll I hrun
    rw [Token.surplus_append, f.surplus_before hf, Token.surplus_operand,
      Calculator.surplus] at hsurplus
    exact ⟨hrun, by omega⟩

/-- The sum on the left takes one side from outside its parentheses. -/
theorem tokens_conserved_stray_sum :
    let x (k : Nat) : Float := Numeral.value ⟨k, 0⟩
    let front : List Token := [.operand (x 2), .operand (x 3), .operator (.binary .mul),
      .operator .leftParen, .operator (.binary .add)]
    let tokens : List Token := front ++ [.operand (x 4), .operator .rightParen]
    let f : Formula := .chain (.literal (x 2)) .mul
      (.single (.parens (.chain (.literal (x 3)) .add (.single (.literal (x 4))))))
    let run (tokens : List Token) := Calculator.initial.acceptAll (.arithmetic Platform.power) tokens
    (run tokens).answer = .ok () ∧ (run front).calculator.surplus = 0 ∧
      (run front).calculator.openCount = 2 ∧
      (run (f.tokens.take 6)).calculator.operands.length =
        (run (f.tokens.take 6)).calculator.operators.countP (fun op => !op.isParenthesis) + 1 := by
  intro x front tokens f run
  have h : (run tokens).answer = .ok () := rfl
  obtain ⟨hfronts, hliterals⟩ := tokens_conserved (.arithmetic Platform.power)
  have hfront := hfronts tokens h front (List.prefix_append _ _)
  have hliteral := hliterals f (f.tokens.take 5) [.operator .rightParen] (x 4) rfl
  exact ⟨h, hfront.2.1, hfront.2.2, hliteral.2⟩

end InfixCalculator
