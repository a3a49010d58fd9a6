import InfixCalculator.Proofs.Acceptance
import InfixCalculator.Proofs.Literals
import InfixCalculator.Proofs.Readability

/-!
The two written forms of an answer lose nothing: each of them shows the expression, and
so the other form and the value.
-/
namespace InfixCalculator

structure Answered (power : Float → Float → Float) (text first last : String) (value : Float) :
    Prop where
  operatorFirst : evaluate power .operatorFirst text = .ok first
  operatorLast : evaluate power .operatorLast text = .ok last
  value : evaluate power .value text = .ok value

/-- A text with an answer in one form has all three, made from one expression. -/
theorem exists_answered {power : Float → Float → Float} {n : Notation} {text : String}
    {x : n.Result} (h : evaluate power n text = .ok x) :
    ∃ e : Expression, Answered power text (e.fold .operatorFirst) (e.fold .operatorLast)
      (e.fold (.arithmetic power)) := by
  obtain ⟨e, hevery⟩ := exists_tree h
  exact ⟨e, hevery .operatorFirst, hevery .operatorLast, hevery (.arithmetic power)⟩

/-- A tree is determined by the texts of its literals. -/
theorem Expression.texts_injective : Function.Injective Expression.texts := by
  intro e e' same
  have hleaves : e.literals.map literalText = e'.literals.map literalText := by
    rw [← leaves_texts, same, leaves_texts]
  exact eq_of_texts same (List.map_injective_iff.mpr literalText_injective hleaves)

/-- Two texts with answers are written alike with the operators first just when they are
written alike with the operators last, and then they have the same value. -/
theorem written_forms_lossless {power : Float → Float → Float} {n n' : Notation}
    {text other : String} {x : n.Result} {y : n'.Result} (h : evaluate power n text = .ok x)
    (h' : evaluate power n' other = .ok y) :
    ∃ (first last : String) (value : Float) (first' last' : String) (value' : Float),
      Answered power text first last value ∧ Answered power other first' last' value' ∧
        (first = first' ↔ last = last') ∧ (first = first' → value.toBits = value'.toBits) := by
  obtain ⟨e, hanswered⟩ := exists_answered h
  obtain ⟨e', hanswered'⟩ := exists_answered h'
  have hfirst : e.fold .operatorFirst = e'.fold .operatorFirst ↔ e.texts = e'.texts :=
    Expression.fold_inj .operatorFirst
  have hlast : e.fold .operatorLast = e'.fold .operatorLast ↔ e.texts = e'.texts :=
    Expression.fold_inj .operatorLast
  refine ⟨_, _, _, _, _, _, hanswered, hanswered', hfirst.trans hlast.symm, fun same => ?_⟩
  obtain rfl := Expression.texts_injective (hfirst.mp same)
  rfl

/-- The sum on the left takes one side from outside its parentheses. -/
theorem written_forms_lossless_sum :
    ∃ x y, (evaluate Platform.power .value "1(+2)" = .ok x ∧
      evaluate Platform.power .operatorFirst "1.0 + 2" = .ok y) ∧
    ∃ (first last : String) (value : Float) (first' last' : String) (value' : Float),
      Answered Platform.power "1(+2)" first last value ∧
        Answered Platform.power "1.0 + 2" first' last' value' ∧
        (first = first' ↔ last = last') ∧ (first = first' → value.toBits = value'.toBits) := by
  let one := Numeral.value ⟨1, 0⟩
  let one' := Numeral.value ⟨10, 1⟩
  let two := Numeral.value ⟨2, 0⟩
  let nest : Nest := .operand one (.group (.operator .add (.operand two .done)) .done)
  let nest' : Nest := .operand one' (.operator .add (.operand two .done))
  let sum (x : Float) : Expression := .node .add (.literal x) (.literal two)
  have htext : tokenize "1(+2)" = .ok nest.tokens := by
    rw [tokenize, scanText_eq_scanPieces]
    rfl
  have htext' : tokenize "1.0 + 2" = .ok nest'.tokens := by
    rw [tokenize, scanText_eq_scanPieces]
    rfl
  have hprogram : nest.program = (sum one).program := by
    simp [nest, sum, Nest.program, Nest.segments, reference_eq_foldl, Grouping.attach,
      Grouping.waiting, Grouping.join]
  have hprogram' : nest'.program = (sum one').program := by
    simp [nest', sum, Nest.program, Nest.segments, reference_eq_foldl, Grouping.attach,
      Grouping.waiting, Grouping.join]
  have h := (evaluate_answer_iff (Notation.value.interpretation Platform.power) _ _).mpr
    ⟨nest, sum one, htext, hprogram, rfl⟩
  have h' := (evaluate_answer_iff (Notation.operatorFirst.interpretation Platform.power) _ _).mpr
    ⟨nest', sum one', htext', hprogram', rfl⟩
  exact ⟨_, _, ⟨h, h'⟩, written_forms_lossless h h'⟩

end InfixCalculator
