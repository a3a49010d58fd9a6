import InfixCalculator.Proofs.Meaning
import InfixCalculator.Proofs.Operation

/-!
Calculators that differ only in their results run in lockstep. Where the results of
one are the images of the other's, every action of the one is the image of the same
action of the other, whatever the stacks hold. Every interpretation is an image of
the trees.
-/
namespace InfixCalculator

variable {α β γ δ ε ζ : Type}

def Reduction.map (f : α → β) (r : Reduction α) : Reduction β :=
  ⟨r.operator, f r.left, f r.right, f r.result⟩

def Calculator.map (f : α → β) (c : Calculator α) : Calculator β :=
  ⟨c.operands.map f, c.operators⟩

def Reply.map (f : α → β) : Reply α → Reply β
  | done => done
  | closed paren => closed paren
  | value x => value (f x)

def Run.map (f : α → β) (g : γ → δ) (run : Run α γ) : Run β δ :=
  ⟨run.answer.map g, run.calculator.map f, run.reductions.map (·.map f)⟩

@[simp] theorem Run.map_ok (f : α → β) (g : γ → δ) (answer : γ) (c : Calculator α) :
    (Run.ok answer c).map f g = .ok (g answer) (c.map f) := rfl
@[simp] theorem Run.map_fail (f : α → β) (g : γ → δ) (fault : Fault) (c : Calculator α) :
    (Run.fail fault c : Run α γ).map f g = .fail fault (c.map f) := rfl

/-- A translation goes through a sequence of runs if it goes through each part. -/
theorem Run.map_andThen {f : α → β} (g : γ → δ) {k : ε → ζ} (run : Run α γ)
    {next : γ → Calculator α → Run α ε} {next' : δ → Calculator β → Run β ζ}
    (h : ∀ b c, (next b c).map f k = next' (g b) (c.map f)) :
    (run.andThen next).map f k = (run.map f g).andThen next' := by
  obtain ⟨answer, c, reductions⟩ := run
  cases answer with
  | error fault => rfl
  | ok b =>
    simp only [Run.andThen, Run.map, Except.map, ← h]
    rw [List.map_append]

/-- A function on results under which the one interpretation becomes the other. -/
structure Translates (f : α → β) (I : Interpretation α) (J : Interpretation β) : Prop where
  literal : ∀ x, f (I.literal x) = J.literal x
  combine : ∀ op left right, f (I.combine op left right) = J.combine op (f left) (f right)

theorem translates_fold (I : Interpretation α) : Translates (Expression.fold I) .trees I :=
  ⟨fun _ => rfl, fun _ _ _ => rfl⟩

section

variable {f : α → β} {I : Interpretation α} {J : Interpretation β} (h : Translates f I J)

namespace Calculator

include h

theorem applyTop_map (op : Operator) (c : Calculator α) :
    (applyTop I op c).map f id = applyTop J op (c.map f) := by
  obtain ⟨operands, operators⟩ := c
  match operands with
  | [] => rfl
  | [x] => rfl
  | right :: left :: below =>
    cases op with
    | binary op => simp [applyTop, Run.map, map, Reduction.map, Except.map, h.combine]
    | leftParen => rfl
    | rightParen => rfl

theorem reduceTop_map (c : Calculator α) :
    (reduceTop I c).map f id = reduceTop J (c.map f) := by
  obtain ⟨operands, operators⟩ := c
  cases operators with
  | nil => rfl
  | cons op rest =>
    have happly : (applyTop I op ⟨operands, rest⟩).map f id =
        applyTop J op ⟨operands.map f, rest⟩ := applyTop_map h op _
    cases op with
    | leftParen => rfl
    | binary | rightParen =>
      simp only [reduceTop, map, ← happly]
      exact Run.map_andThen id _ fun _ _ => rfl

theorem closeOperators_map (operands : List α) (operators : List Operator) :
    (closeOperators I operands operators).map f id =
      closeOperators J (operands.map f) operators := by
  induction operators generalizing operands with
  | nil => rfl
  | cons op rest ih =>
    have happly : (applyTop I op ⟨operands, rest⟩).map f id =
        applyTop J op ⟨operands.map f, rest⟩ := applyTop_map h op _
    cases op with
    | leftParen => rfl
    | binary | rightParen =>
      simp only [closeOperators, ← happly]
      exact Run.map_andThen id _ fun _ c => ih c.operands

theorem closeGroup_map (c : Calculator α) : (closeGroup I c).map f id = closeGroup J (c.map f) :=
  closeOperators_map h c.operands c.operators

theorem acceptOperator_map (op : Operator) (c : Calculator α) :
    (acceptOperator I op c).map f id = acceptOperator J op (c.map f) := by
  obtain ⟨operands, operators⟩ := c
  cases operators with
  | nil => rfl
  | cons top below =>
    have hclose := closeGroup_map h ⟨operands, top :: below⟩
    have hreduce := reduceTop_map h ⟨operands, top :: below⟩
    simp only [map] at hclose hreduce
    simp only [acceptOperator, map, ← hclose, ← hreduce]
    split
    · rfl
    · split
      · rfl
      · split
        · exact Run.map_andThen id _ fun _ _ => rfl
        · exact Run.map_andThen id _ fun _ _ => rfl

theorem accept_map (token : Token) (c : Calculator α) :
    (accept I token c).map f id = accept J token (c.map f) := by
  cases token with
  | operand x => simp [accept, pushOperand, map, h.literal]
  | operator op => exact acceptOperator_map h op c

/-- Tokens are accepted in the same way by both calculators, up to the same fault. -/
theorem acceptAll_map (tokens : List Token) (c : Calculator α) :
    (acceptAll I tokens c).map f id = acceptAll J tokens (c.map f) := by
  induction tokens generalizing c with
  | nil => rfl
  | cons token rest ih =>
    rw [acceptAll_cons, acceptAll_cons, ← accept_map h]
    exact Run.map_andThen id _ fun _ c => ih c

theorem acceptText_map (text : List Char) (c : Calculator α) :
    (acceptText I text c).map f id = acceptText J text (c.map f) := by
  unfold acceptText
  simp only [← acceptAll_map h]
  refine Run.map_andThen id _ fun _ c => ?_
  cases (scanText text).fault with
  | none => rfl
  | some fault => rfl

omit h in
theorem takeValue_map (f : α → β) (c : Calculator α) :
    (takeValue c).map f f = takeValue (c.map f) := by
  obtain ⟨operands, operators⟩ := c
  match operators, operands with
  | op :: rest, _ => rfl
  | [], [] => rfl
  | [], [x] => rfl
  | [], x :: y :: more => simp [takeValue, map]

/-- Both calculators give one answer, up to the translation, or one fault. -/
theorem evaluate_map (text : String) (c : Calculator α) :
    (c.evaluate I text).map f f = (c.map f).evaluate J text := by
  unfold evaluate
  rw [← acceptText_map h]
  refine Run.map_andThen id _ fun _ c => ?_
  rw [← closeGroup_map h]
  exact Run.map_andThen id _ fun _ c => takeValue_map f c

end Calculator

theorem Run.map_reply {g : γ → δ} {wrap : γ → Reply α} {wrap' : δ → Reply β} {run : Run α γ}
    {run' : Run β δ} (hrun : run.map f g = run') (hwrap : ∀ b, (wrap b).map f = wrap' (g b)) :
    (run.reply wrap).map f (Reply.map f) = run'.reply wrap' := by
  subst hrun
  obtain ⟨answer, c, reductions⟩ := run
  cases answer with
  | error fault => rfl
  | ok b => simp [Run.reply, Run.map, Except.map, hwrap]

include h

theorem Operation.perform_map (op : Operation) (c : Calculator α) :
    (op.perform I c).map f (Reply.map f) = op.perform J (c.map f) := by
  cases op with
  | evaluate text => exact Run.map_reply (Calculator.evaluate_map h text c) fun _ => rfl
  | accept token => exact Run.map_reply (Calculator.accept_map h token c) fun _ => rfl
  | acceptOperator op => exact Run.map_reply (Calculator.acceptOperator_map h op c) fun _ => rfl
  | reduceTop => exact Run.map_reply (Calculator.reduceTop_map h c) fun _ => rfl
  | closeGroup => exact Run.map_reply (Calculator.closeGroup_map h c) fun _ => rfl
  | reset => rfl

/-- Calculators that start in step stay so through any operations. -/
theorem Calculator.after_map (c : Calculator α) (ops : List Operation) :
    (c.after I ops).map f = (c.map f).after J ops := by
  induction ops generalizing c with
  | nil => rfl
  | cons op rest ih =>
    rw [after, after, ← op.perform_map h]
    exact ih _

end

/-- The calculators of all notations do the same with the same trees, from new on
and after faults too: they have the same operators, their operands are the meanings
of the same trees, and each answer is the same fault or the meaning of one tree. -/
theorem calculators_in_lockstep (power : Float → Float → Float) (ops : List Operation) :
    ∃ (trees : List Expression) (operators : List Operator),
      (∀ n : Notation, Calculator.initial.after (n.interpretation power) ops =
        ⟨trees.map (·.meaning power n), operators⟩) ∧
      ∀ next : Operation,
        (∃ fault, ∀ n : Notation,
          (next.perform (n.interpretation power)
            (Calculator.initial.after (n.interpretation power) ops)).answer = .error fault) ∨
        (∃ reply : Reply Expression, ∀ n : Notation,
          (next.perform (n.interpretation power)
            (Calculator.initial.after (n.interpretation power) ops)).answer =
              .ok (reply.map (·.meaning power n))) := by
  simp only [← Expression.fold_interpretation]
  let built := (Calculator.initial : Calculator Expression).after .trees ops
  have hafter (n : Notation) : Calculator.initial.after (n.interpretation power) ops =
      built.map (·.fold (n.interpretation power)) :=
    (Calculator.after_map (translates_fold (n.interpretation power)) .initial ops).symm
  refine ⟨built.operands, built.operators, hafter, fun next => ?_⟩
  have hnext (n : Notation) :
      (next.perform (n.interpretation power)
        (Calculator.initial.after (n.interpretation power) ops)).answer =
        (next.perform .trees built).answer.map (Reply.map (·.fold (n.interpretation power))) := by
    rw [hafter n, ← next.perform_map (translates_fold (n.interpretation power))]
    rfl
  cases hanswer : (next.perform .trees built).answer with
  | error fault => exact .inl ⟨fault, fun n => by rw [hnext n, hanswer]; rfl⟩
  | ok reply => exact .inr ⟨reply, fun n => by rw [hnext n, hanswer]; rfl⟩

end InfixCalculator
