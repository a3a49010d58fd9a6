import InfixCalculator.Log
import InfixCalculator.Platform
import InfixCalculator.Proofs.Inventory
import InfixCalculator.Proofs.Wording

/-!
The log of an accepted text is its expression in postorder: one record for each node,
after the records of the two sides of the node. The operator-last form shows the same
operators in the same order, and the last record shows the answer.
-/
namespace InfixCalculator

/-! Nodes of a tree -/

/-- An operator in a tree, with the trees on its two sides. -/
structure InnerNode where
  operator : BinaryOperator
  left : Expression
  right : Expression

def InnerNode.tree (node : InnerNode) : Expression := .node node.operator node.left node.right

namespace Expression

/-- The operators of a tree in postorder. -/
def innerNodes : Expression → List InnerNode
  | literal _ => []
  | node op left right => left.innerNodes ++ right.innerNodes ++ [⟨op, left, right⟩]

theorem operators_innerNodes (e : Expression) : e.innerNodes.map (·.operator) = e.operators := by
  induction e with
  | literal x => rfl
  | node op left right left_ih right_ih => simp [innerNodes, operators, left_ih, right_ih]

/-- There is one reduction for each inner node, of the meanings of its two sides. -/
theorem reductions_eq_innerNodes {α : Type} (I : Interpretation α) (e : Expression) :
    e.reductions I = e.innerNodes.map fun node =>
      ⟨node.operator, node.left.fold I, node.right.fold I, node.tree.fold I⟩ := by
  induction e with
  | literal x => rfl
  | node op left right left_ih right_ih =>
    simp [reductions, innerNodes, InnerNode.tree, left_ih, right_ih]

/-- The root comes last. -/
theorem tree_of_getLast? {e : Expression} {node : InnerNode}
    (h : node ∈ e.innerNodes.getLast?) : node.tree = e := by
  cases e with
  | literal x => contradiction
  | node op left right =>
    rw [innerNodes, List.getLast?_concat] at h
    obtain rfl := Option.some.inj h
    rfl

end Expression

/-! Trees as the log names them -/

namespace Expression

/-- The name of a notation's results with the meaning of the tree, a text in quotes. -/
def logged (power : Float → Float → Float) (e : Expression) : Notation → String
  | .value => "NumericResult(" ++ answerText (e.value power) ++ ")"
  | .operatorFirst => "PrefixResult('" ++ e.operatorFirst ++ "')"
  | .operatorLast => "PostfixResult('" ++ e.operatorLast ++ "')"

/-- Written forms have nothing in them that quoting would change. -/
theorem describe_meaning (power : Float → Float → Float) (e : Expression) (n : Notation) :
    n.describe (e.meaning power n) = e.logged power n := by
  have hchars := AnswerChars.shown (n := n) power e
  rw [fold_interpretation] at hchars
  cases n with
  | value => rfl
  | operatorFirst =>
    have hquoted : quoted e.operatorFirst = "'" ++ e.operatorFirst ++ "'" :=
      quoted_of_answerChars hchars
    change "PrefixResult(" ++ quoted e.operatorFirst ++ ")" =
      "PrefixResult('" ++ e.operatorFirst ++ "')"
    rw [hquoted, ← String.toList_inj]
    simp
  | operatorLast =>
    have hquoted : quoted e.operatorLast = "'" ++ e.operatorLast ++ "'" :=
      quoted_of_answerChars hchars
    change "PostfixResult(" ++ quoted e.operatorLast ++ ")" =
      "PostfixResult('" ++ e.operatorLast ++ "')"
    rw [hquoted, ← String.toList_inj]
    simp

end Expression

/-! Operators of a written form -/

/-- The operator characters of a text, in order. -/
def operatorSymbols (text : List Char) : List Char := text.filter (· ∈ ['+', '-', '*', '/', '^'])

theorem operatorSymbols_append (text other : List Char) :
    operatorSymbols (text ++ other) = operatorSymbols text ++ operatorSymbols other :=
  List.filter_append text other

theorem operatorSymbols_symbol (op : BinaryOperator) :
    operatorSymbols [op.symbol] = [op.symbol] := by
  cases op <;> rfl

/-- An unsigned literal adds no operator to a written form. -/
theorem operatorSymbols_literalText {x : Float} (h : hasSignBit x = false) :
    operatorSymbols (literalText x).toList = [] := by
  have habsent (op : BinaryOperator) : op.symbol ∉ (literalText x).toList :=
    symbol_notMem_literalText h (.binary op)
  refine List.filter_eq_nil_iff.mpr fun c hc => ?_
  have hother (op : BinaryOperator) : c ≠ op.symbol := fun heq => habsent op (heq ▸ hc)
  simpa using ⟨hother .add, hother .sub, hother .mul, hother .div, hother .pow⟩

/-- The operator-last form of a tree without signs shows its operators in postorder. -/
theorem operatorSymbols_operatorLast {e : Expression}
    (h : ∀ x ∈ e.literals, hasSignBit x = false) :
    operatorSymbols (e.fold .operatorLast).toList = e.operators.map (·.symbol) := by
  induction e with
  | literal x => exact operatorSymbols_literalText (h x (List.mem_singleton_self x))
  | node op left right left_ih right_ih =>
    have hleft := left_ih fun x hx => h x (List.mem_append_left _ hx)
    have hright := right_ih fun x hx => h x (List.mem_append_right _ hx)
    have hwritten : ((Expression.node op left right).fold .operatorLast).toList =
        ['('] ++ (left.fold .operatorLast).toList ++ [' '] ++
          (right.fold .operatorLast).toList ++ [' '] ++ [op.symbol] ++ [')'] := by
      simp [Interpretation.operatorLast]
    have hopen : operatorSymbols ['('] = [] := rfl
    have hspace : operatorSymbols [' '] = [] := rfl
    have hclose : operatorSymbols [')'] = [] := rfl
    rw [hwritten]
    simp only [operatorSymbols_append, hopen, hspace, hclose, hleft, hright,
      operatorSymbols_symbol, Expression.operators]
    simp

/-! Logs -/

/-- The record of a reduction at a node. -/
theorem reduced_innerNode (power : Float → Float → Float) (n : Notation) (node : InnerNode) :
    let I := n.interpretation power
    LogRecord.reduced n
        ⟨node.operator, node.left.fold I, node.right.fold I, node.tree.fold I⟩ =
      ⟨.evaluator, .debug,
        "Reduced " ++ node.left.logged power n ++ " " ++ node.operator.symbol.toString ++ " " ++
          node.right.logged power n ++ " -> " ++ node.tree.logged power n⟩ := by
  simp only [LogRecord.reduced, Expression.fold_interpretation, Expression.describe_meaning]

/-- The log of an accepted text announces the text and then records the operators of its
tree in postorder, each with the trees on its sides and the tree below it as the notation
names them. There is a record for each operator of the text, the operators of the records
are those of the operator-last form in its order, and the last record has the answer. -/
theorem evaluate_logs_postorder {power : Float → Float → Float} {n : Notation} {text : String}
    {x : n.Result} (h : evaluate power n text = .ok x) :
    ∃ (e : Expression) (tokens : List Token) (last : String),
      (∀ m : Notation, evaluate power m text = .ok (e.meaning power m)) ∧
      tokenize text = .ok tokens ∧ evaluate power .operatorLast text = .ok last ∧
      let run := Calculator.initial.evaluate (n.interpretation power) text
      LogRecord.ofEvaluation n text run =
        ⟨.evaluator, .debug, "Evaluating " ++ quoted text ++ " as " ++ n.name⟩ ::
          e.innerNodes.map (fun node => ⟨.evaluator, .debug,
            "Reduced " ++ node.left.logged power n ++ " " ++ node.operator.symbol.toString ++ " " ++
              node.right.logged power n ++ " -> " ++ node.tree.logged power n⟩) ∧
      (e.innerNodes.map (·.operator)).Perm (tokens.filterMap Token.binary?) ∧
      e.innerNodes.map (·.operator.symbol) = operatorSymbols last.toList ∧
      (tokens.filterMap Token.binary? ≠ [] →
        ∃ node ∈ e.innerNodes.getLast?, node.tree.meaning power n = x) := by
  obtain ⟨e, hevery⟩ := exists_tree_reductions h
  have hanswer (m : Notation) : evaluate power m text = .ok (e.meaning power m) := by
    rw [← Expression.fold_interpretation]
    exact (hevery (m.interpretation power)).1
  obtain rfl : x = e.meaning power n := Except.ok.inj (h.symm.trans (hanswer n))
  have hreductions := (hevery (n.interpretation power)).2
  have htree := (hevery .trees).1
  rw [Expression.fold_trees] at htree
  obtain ⟨tokens, htokens, hliterals, hoperators⟩ := Calculator.evaluate_inventory htree
  have hunsigned : ∀ x ∈ e.literals, hasSignBit x = false := by
    rw [hliterals]
    exact unsigned_of_tokens htokens
  have hperm : (e.innerNodes.map (·.operator)).Perm (tokens.filterMap Token.binary?) := by
    rw [Expression.operators_innerNodes]
    exact List.perm_iff_count.mpr hoperators
  refine ⟨e, tokens, _, hanswer, htokens, hanswer .operatorLast, ?records, hperm, ?symbols, ?last⟩
  case records =>
    rw [LogRecord.ofEvaluation, hreductions, Expression.reductions_eq_innerNodes, List.map_map]
    refine congrArg _ (List.map_congr_left fun node _ => ?_)
    exact reduced_innerNode power n node
  case symbols =>
    have hwritten := operatorSymbols_operatorLast hunsigned
    rw [← Expression.operators_innerNodes, List.map_map] at hwritten
    rw [← Expression.fold_interpretation]
    exact hwritten.symm
  case last =>
    intro hsome
    have hnodes : e.innerNodes ≠ [] := by
      intro hnone
      rw [hnone] at hperm
      exact hsome hperm.symm.eq_nil
    have hnode := List.getLast?_eq_some_getLast hnodes
    exact ⟨_, hnode, by rw [Expression.tree_of_getLast? hnode]⟩

/-- The first operation takes its left side from outside its parentheses. -/
theorem evaluate_logs_postorder_stray :
    let n : Notation := .operatorFirst
    let text := "1(2-)*3"
    let record (node : InnerNode) : LogRecord := ⟨.evaluator, .debug,
      "Reduced " ++ node.left.logged Platform.power n ++ " " ++ node.operator.symbol.toString ++
        " " ++ node.right.logged Platform.power n ++ " -> " ++ node.tree.logged Platform.power n⟩
    (∃ x, evaluate Platform.power n text = .ok x) ∧
    ∃ (e : Expression) (last : String), evaluate Platform.power .operatorLast text = .ok last ∧
      e.innerNodes.map record =
        [⟨.evaluator, .debug,
            "Reduced PrefixResult('1') - PrefixResult('2') -> PrefixResult('(- 1 2)')"⟩,
          ⟨.evaluator, .debug, "Reduced PrefixResult('(- 1 2)') * PrefixResult('3') -> " ++
            "PrefixResult('(* (- 1 2) 3)')"⟩] ∧
      (e.innerNodes.map (·.operator)).Perm [.sub, .mul] ∧
      e.innerNodes.map (·.operator.symbol) = operatorSymbols last.toList ∧
      ∃ node ∈ e.innerNodes.getLast?,
        evaluate Platform.power n text = .ok (node.tree.meaning Platform.power n) := by
  intro n text record
  let literal (k : ℕ) : Float := Numeral.value ⟨k, 0⟩
  let nest : Nest := .operand (literal 1) (.group (.operand (literal 2) (.operator .sub .done))
    (.operator .mul (.operand (literal 3) .done)))
  let e : Expression :=
    .node .mul (.node .sub (.literal (literal 1)) (.literal (literal 2))) (.literal (literal 3))
  have htext : tokenize "1(2-)*3" = .ok nest.tokens := by
    rw [tokenize, scanText_eq_scanPieces]
    rfl
  have hprogram : nest.program = e.program := by
    simp [nest, e, Nest.program, Nest.segments, reference_eq_foldl, Grouping.attach,
      Grouping.waiting, Grouping.insert, Grouping.join]
  have h := (evaluate_answer_iff (n.interpretation Platform.power) text _).mpr
    ⟨nest, e, htext, hprogram, rfl⟩
  obtain ⟨tree, tokens, last, -, htokens, hlast, hlog, hperm, hsymbols, hanswer⟩ :=
    evaluate_logs_postorder h
  rw [htext] at htokens
  obtain rfl := Except.ok.inj htokens
  obtain ⟨node, hnode, hresult⟩ := hanswer (by simp [nest, Token.binary?])
  have hrecords : LogRecord.ofEvaluation n text
      (Calculator.initial.evaluate (n.interpretation Platform.power) text) =
      [⟨.evaluator, .debug, "Evaluating '1(2-)*3' as prefix"⟩,
        ⟨.evaluator, .debug,
          "Reduced PrefixResult('1') - PrefixResult('2') -> PrefixResult('(- 1 2)')"⟩,
        ⟨.evaluator, .debug, "Reduced PrefixResult('(- 1 2)') * PrefixResult('3') -> " ++
          "PrefixResult('(* (- 1 2) 3)')"⟩] := by
    decide +kernel
  exact ⟨⟨_, h⟩, tree, last, hlast, (List.cons.inj (hlog.symm.trans hrecords)).2, hperm, hsymbols,
    node, hnode, hresult ▸ h⟩

end InfixCalculator
