import InfixCalculator.Platform
import InfixCalculator.Proofs.Formula
import InfixCalculator.Proofs.Lexing
import InfixCalculator.Proofs.Meaning
import InfixCalculator.Proofs.Simulation

/-!
A well-formed text is worth its reference tree, in every notation, and leaves the
calculator as it was when new.
-/
namespace InfixCalculator

theorem execute_answer_program (I : Interpretation α) (e : Expression) :
    (execute I e.program []).answer = .ok (e.fold I) := by
  rw [e.execute_program]
  rfl

theorem evaluate_of_formula (I : Interpretation α) {text : String} {f : Formula}
    (h : tokenize text = .ok f.tokens) :
    (Calculator.initial.evaluate I text).answer = .ok (f.tree.fold I) ∧
      (Calculator.initial.evaluate I text).calculator = .initial := by
  have hnest : tokenize text = .ok f.nest.tokens := by rw [f.tokens_nest, h]
  obtain ⟨hanswer, -, hcalculator⟩ := evaluate_of_nest I hnest
  rw [f.program_nest, execute_answer_program] at hanswer
  exact ⟨hanswer, hcalculator _ hanswer⟩

/-- The answer for a well-formed text is the meaning of its reference tree. The
calculator may be new or reset, and is as good as new afterwards. -/
theorem evaluate_eq_tree (power : Float → Float → Float) {text : String} {f : Formula}
    (h : tokenize text = .ok f.tokens) (n : Notation) {c : Calculator n.Result}
    (fresh : c = .initial ∨ ∃ used : Calculator n.Result, c = used.reset) :
    (c.evaluate (n.interpretation power) text).answer = .ok (f.tree.meaning power n) ∧
      (c.evaluate (n.interpretation power) text).calculator.operands = [] ∧
      (c.evaluate (n.interpretation power) text).calculator.operators = [.leftParen] := by
  obtain rfl : c = .initial := by
    rcases fresh with rfl | ⟨used, rfl⟩ <;> rfl
  obtain ⟨hanswer, hcalculator⟩ := evaluate_of_formula (n.interpretation power) h
  rw [hcalculator, ← Expression.fold_interpretation]
  exact ⟨hanswer, rfl, rfl⟩

/-- The multiplication by four takes the whole difference before it, and the negative
product is doubled. -/
theorem evaluate_eq_tree_nested :
    let x (k : Nat) : Atom := .literal (Numeral.value ⟨k, 0⟩)
    let inner : Formula := .chain (x 8) .sub (.chain (x 3) .pow (.chain (x 2) .mul (.single (x 4))))
    let f : Formula := .chain (x 2) .mul (.chain (.parens inner) .add (.single (x 5)))
    let used : Calculator Float := ⟨[1, 2], []⟩
    let value := Notation.value.interpretation Platform.power
    tokenize " 2*( 8 - 3^2*4)+5 " = .ok f.tokens ∧
      (used.reset.evaluate value " 2*( 8 - 3^2*4)+5 ").answer = .ok (-3 : Float) := by
  intro x inner f used value
  have h : tokenize " 2*( 8 - 3^2*4)+5 " = .ok f.tokens := by
    rw [tokenize, scanText_eq_scanPieces]
    rfl
  let literal (k : Nat) : Expression := .literal (Numeral.value ⟨k, 0⟩)
  let product : Expression :=
    .node .mul (.node .sub (literal 8) (.node .pow (literal 3) (literal 2))) (literal 4)
  let tree : Expression := .node .add (.node .mul (literal 2) product) (literal 5)
  have htree : f.tree = tree := by
    simp [f, inner, x, tree, literal, product, Formula.tree, Formula.treeBy, Formula.linksBy,
      Atom.treeBy, reference_eq_foldl, Grouping.attach, Grouping.waiting, Grouping.insert,
      Grouping.join, BinaryOperator.priority]
    rfl
  have hvalue : tree.value Platform.power = -3 := by decide +kernel
  have hanswer := (evaluate_eq_tree Platform.power h .value (c := used.reset) (.inr ⟨used, rfl⟩)).1
  rw [htree] at hanswer
  exact ⟨h, hanswer.trans (congrArg Except.ok hvalue)⟩

end InfixCalculator
