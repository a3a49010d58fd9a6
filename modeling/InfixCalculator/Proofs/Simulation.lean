import InfixCalculator.Proofs.Conversion
import InfixCalculator.Proofs.OperatorStack

/-!
The calculator executes the program that the conversion of its tokens emits: same
faults, same operands, same reductions. A text whose tokens are a nest is worth
what the program of the nest is worth.
-/
namespace InfixCalculator

variable {α : Type} (I : Interpretation α)

/-- A run ends as an execution does; if that went through, the run leaves the
given operators. -/
structure Follows (run : Run α Unit) (e : Execution α) (operators : List Operator) : Prop where
  answer : run.answer =
    e.lacking.elim (.ok ()) fun op => .error (.missingOperand (some op.symbol.toString))
  operands : run.calculator.operands = e.operands
  reductions : run.reductions = e.reductions
  operators : e.lacking = none → run.calculator.operators = operators

theorem Follows.ok (operands : List α) (operators : List Operator) :
    Follows (.ok () ⟨operands, operators⟩) ⟨none, operands, []⟩ operators :=
  ⟨rfl, rfl, rfl, fun _ => rfl⟩

theorem Follows.operators_of_ok {run : Run α Unit} {e : Execution α} {operators : List Operator}
    (h : Follows run e operators) (hrun : run.answer = .ok ()) :
    run.calculator.operators = operators := by
  refine h.operators ?_
  have hanswer := h.answer
  rw [hrun] at hanswer
  cases hlacking : e.lacking with
  | none => rfl
  | some op =>
    rw [hlacking] at hanswer
    contradiction

theorem Follows.andThen {run : Run α Unit} {e : Execution α} {middle last : List Operator}
    {next : Unit → Calculator α → Run α Unit} {following : List α → Execution α}
    (h : Follows run e middle)
    (hnext : Follows (next () ⟨e.operands, middle⟩) (following e.operands) last) :
    Follows (run.andThen next) (e.andThen following) last := by
  obtain ⟨answer, c, reductions⟩ := run
  obtain ⟨lacking, operands, reductions'⟩ := e
  obtain ⟨hanswer, rfl, rfl, hoperators⟩ := h
  cases lacking with
  | some op =>
    simp only [Option.elim] at hanswer
    subst hanswer
    exact ⟨rfl, rfl, rfl, nofun⟩
  | none =>
    simp only [Option.elim] at hanswer
    subst hanswer
    have hc : c = ⟨c.operands, middle⟩ := by rw [← hoperators rfl]
    obtain ⟨nanswer, noperands, nreductions, noperators⟩ := hnext
    rw [← hc] at nanswer noperands nreductions noperators
    exact ⟨nanswer, noperands, congrArg (reductions ++ ·) nreductions, noperators⟩

/-- A step at the end that cannot fail and keeps the operands. -/
theorem Follows.finish {run : Run α Unit} {e : Execution α} {middle : List Operator}
    (h : Follows run e middle) (f : List Operator → List Operator) :
    Follows (run.andThen fun _ c => .ok () ⟨c.operands, f c.operators⟩) e (f middle) := by
  have hcut : e = e.andThen fun operands => ⟨none, operands, []⟩ := by
    obtain ⟨lacking, operands, reductions⟩ := e
    cases lacking <;> simp [Execution.andThen]
  rw [hcut]
  exact h.andThen (.ok e.operands (f middle))

namespace Calculator

/-- The operators of one group above its parenthesis, and what lies below. -/
def stacked (pending : List BinaryOperator) (below : List Operator) : List Operator :=
  pending.map .binary ++ .leftParen :: below

@[simp] theorem stacked_nil (below : List Operator) : stacked [] below = .leftParen :: below := rfl
@[simp] theorem stacked_cons (op : BinaryOperator) (pending : List BinaryOperator)
    (below : List Operator) :
    stacked (op :: pending) below = .binary op :: stacked pending below := rfl

theorem applyTop_follows (op : BinaryOperator) (operands : List α) (operators : List Operator) :
    Follows (applyTop I (.binary op) ⟨operands, operators⟩) (execute I [.apply op] operands)
      operators := by
  match operands with
  | [] => exact ⟨rfl, rfl, rfl, nofun⟩
  | [x] => exact ⟨rfl, rfl, rfl, nofun⟩
  | right :: left :: more => exact ⟨rfl, rfl, rfl, fun _ => rfl⟩

/-- The end of a group applies the operators that wait in it. -/
theorem closeOperators_follows (pending : List BinaryOperator) (operands : List α)
    (below : List Operator) :
    Follows (closeOperators I operands (stacked pending below))
      (execute I (pending.map .apply) operands) below := by
  induction pending generalizing operands with
  | nil => exact .ok operands below
  | cons op rest ih =>
    have hcut : execute I ((op :: rest).map .apply) operands =
        (execute I [.apply op] operands).andThen (execute I (rest.map .apply)) :=
      execute_append I [.apply op] (rest.map .apply) operands
    rw [hcut]
    exact (applyTop_follows I op operands (stacked rest below)).andThen (ih _)

/-- An operator that arrives has the calculator execute what the conversion emits. -/
theorem acceptOperator_follows (op : BinaryOperator) (pending : List BinaryOperator)
    (operands : List α) (below : List Operator) :
    Follows (acceptOperator I (.binary op) ⟨operands, stacked pending below⟩)
      (execute I (Conversion.arrive op pending).emitted operands)
      (stacked (Conversion.arrive op pending).pending below) := by
  cases pending with
  | nil =>
    have hop : Operator.leftParen.stackPriority < (op.priority : Int) :=
      Int.natCast_pos.mpr op.priority_pos
    simpa [acceptOperator, hop, Conversion.arrive] using .ok operands _
  | cons top more =>
    rcases Nat.lt_trichotomy top.priority op.priority with tighter | alike | looser
    · simpa [acceptOperator, Conversion.arrive, tighter] using .ok operands _
    · have hreduce := applyTop_follows I top operands (stacked more below)
      rw [Conversion.arrive_alike alike]
      simpa [acceptOperator, alike, reduceTop, Run.andThen_assoc, pushOperator] using
        hreduce.finish (.binary op :: ·)
    · have hclose := closeOperators_follows I (top :: more) operands below
      rw [Conversion.arrive_looser looser]
      simpa [acceptOperator, looser, Nat.lt_asymm looser, closeGroup, pushOperator] using
        hclose.finish (.binary op :: .leftParen :: ·)

/-- The calculator executes what the conversion of a nest emits. -/
theorem acceptAll_follows (n : Nest) (pending : List BinaryOperator) (operands : List α)
    (below : List Operator) :
    Follows (acceptAll I n.tokens ⟨operands, stacked pending below⟩)
      (execute I (n.convert pending).emitted operands)
      (stacked (n.convert pending).pending below) := by
  induction n generalizing pending operands below with
  | done => simpa [Nest.convert, Nest.segments, Conversion.ofLinks] using .ok operands _
  | operand x rest ih =>
    simpa [Nest.convert, Nest.segments, accept, pushOperand] using
      ih pending (I.literal x :: operands) below
  | operator op rest ih =>
    have hcut : (execute I ((Nest.operator op rest).convert pending).emitted operands) =
        (execute I (Conversion.arrive op pending).emitted operands).andThen
          (execute I (rest.convert (Conversion.arrive op pending).pending).emitted) := by
      rw [← execute_append]
      simp [Nest.convert, Nest.segments, Conversion.ofLinks]
    rw [hcut]
    exact (acceptOperator_follows I op pending operands below).andThen (ih _ _ _)
  | group inner rest inner_ih rest_ih =>
    have hopen : accept I (.operator .leftParen) ⟨operands, stacked pending below⟩ =
        .ok () ⟨operands, stacked [] (stacked pending below)⟩ :=
      acceptOperator_leftParen I (by simp [stacked])
    have hcut : execute I ((Nest.group inner rest).convert pending).emitted operands =
        (execute I (inner.convert []).emitted operands).andThen fun operands =>
          (execute I ((inner.convert []).pending.map .apply) operands).andThen
            (execute I (rest.convert pending).emitted) := by
      have hemitted : ((Nest.group inner rest).convert pending).emitted =
          (inner.convert []).emitted ++ ((inner.convert []).pending.map .apply ++
            (rest.convert pending).emitted) := by
        rw [← List.append_assoc, ← Conversion.closed, Nest.closed_convert]
        simp [Nest.convert]
      rw [hemitted, execute_append]
      congr 1
      funext operands
      exact execute_append I _ _ operands
    rw [hcut, Nest.tokens_group, acceptAll_cons, hopen, Run.andThen_ok, acceptAll_append]
    refine (inner_ih [] operands (stacked pending below)).andThen ?_
    simp only [acceptAll_cons, accept, acceptOperator_rightParen]
    exact (closeOperators_follows I _ _ _).andThen (rest_ih _ _ _)

def acceptGroup (tokens : List Token) (c : Calculator α) : Run α Unit :=
  (acceptAll I tokens c).andThen fun _ c => closeGroup I c

/-- A closing parenthesis ends one group and leaves the rest to the one around it. -/
theorem acceptGroup_append (first second : List Token) (c : Calculator α) :
    acceptGroup I (first ++ .operator .rightParen :: second) c =
      (acceptGroup I first c).andThen fun _ c => acceptGroup I second c := by
  simp [acceptGroup, acceptAll_append, accept, acceptOperator_rightParen, Run.andThen_assoc]

/-- A whole group is the program of its nest. -/
theorem acceptGroup_follows (n : Nest) (operands : List α) (below : List Operator) :
    Follows (acceptGroup I n.tokens ⟨operands, stacked [] below⟩)
      (execute I n.program operands) below := by
  rw [← Nest.closed_convert, Conversion.closed, execute_append]
  exact (acceptAll_follows I n [] operands below).andThen (closeOperators_follows I _ _ below)

/-- With no group left open, the value taken is the answer of the program. -/
theorem takeValue_follows {run : Run α Unit} {e : Execution α} (h : Follows run e []) :
    let taken := run.andThen fun _ c => takeValue c
    taken.answer = e.answer ∧ taken.reductions = e.reductions ∧
      ∀ x, taken.answer = .ok x → taken.calculator = initial := by
  obtain ⟨answer, ⟨operands, operators⟩, reductions⟩ := run
  obtain ⟨lacking, operands', reductions'⟩ := e
  obtain ⟨hanswer, rfl, rfl, hoperators⟩ := h
  cases lacking with
  | some op =>
    simp only [Option.elim] at hanswer
    subst hanswer
    exact ⟨rfl, rfl, nofun⟩
  | none =>
    simp only [Option.elim] at hanswer
    obtain rfl := hoperators rfl
    subst hanswer
    match operands with
    | [] => exact ⟨rfl, List.append_nil _, nofun⟩
    | [x] => exact ⟨rfl, List.append_nil _, fun _ _ => rfl⟩
    | x :: y :: more => exact ⟨rfl, List.append_nil _, nofun⟩

end Calculator

theorem tokenize_eq_ok_iff {text : String} {tokens : List Token} :
    tokenize text = .ok tokens ↔ scanText text.toList = ⟨tokens, none⟩ := by
  unfold tokenize
  obtain ⟨found, fault⟩ := scanText text.toList
  cases fault <;> simp

theorem Run.andThen_unit (run : Run α Unit) : (run.andThen fun _ c => .ok () c) = run := by
  obtain ⟨answer, c, reductions⟩ := run
  cases answer <;> simp [andThen, ok]

/-- A text that is tokenized is accepted as its tokens are. -/
theorem acceptText_of_tokenize {text : String} {tokens : List Token}
    (h : tokenize text = .ok tokens) (c : Calculator α) :
    c.acceptText I text.toList = c.acceptAll I tokens := by
  rw [Calculator.acceptText, tokenize_eq_ok_iff.mp h]
  exact Run.andThen_unit _

/-- A text whose tokens are a nest is worth what the program of the nest is. -/
theorem evaluate_of_nest {text : String} {n : Nest} (h : tokenize text = .ok n.tokens) :
    let run := Calculator.initial.evaluate I text
    let e := execute I n.program []
    run.answer = e.answer ∧ run.reductions = e.reductions ∧
      ∀ x, run.answer = .ok x → run.calculator = .initial := by
  rw [Calculator.evaluate, acceptText_of_tokenize I h, ← Run.andThen_assoc]
  exact Calculator.takeValue_follows (Calculator.acceptGroup_follows I n [] [])

end InfixCalculator
