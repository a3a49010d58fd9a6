import InfixCalculator.Platform
import InfixCalculator.Proofs.Arrival
import InfixCalculator.Proofs.TableRows

/-!
Expressions of a session do not touch each other. Each attempt leaves the calculator
as good as new, so that only the first one can meet anything else. A list of
expressions and a conversation make the same attempts.
-/
namespace InfixCalculator

namespace Calculator

variable {α : Type}

theorem takeValue_ok_initial {c : Calculator α} {x : α} (h : (takeValue c).answer = .ok x) :
    (takeValue c).calculator = initial := by
  obtain ⟨operands, operators⟩ := c
  match operators, operands with
  | op :: rest, _ => contradiction
  | [], [] => contradiction
  | [], [y] => rfl
  | [], y :: z :: more => contradiction

/-- An answer leaves the stacks fresh, whatever they held before. -/
theorem evaluate_ok_initial (I : Interpretation α) {text : String} {c : Calculator α} {x : α}
    (h : (c.evaluate I text).answer = .ok x) : (c.evaluate I text).calculator = initial := by
  have hending := evaluate_ending I text c
  generalize (c.evaluate I text).answer = answer at h hending
  generalize (c.evaluate I text).calculator = last at hending ⊢
  cases hending with
  | token | text | close => contradiction
  | value => exact takeValue_ok_initial h

end Calculator

variable {power : Float → Float → Float} {n : Notation}

/-- Every attempt leaves the stacks fresh, by its answer or by the reset after its
fault. -/
@[simp] theorem attempt_calculator (power : Float → Float → Float) (n : Notation) (text : String)
    (c : Calculator n.Result) : (attempt power n text c).calculator = .initial := by
  unfold attempt
  cases hanswer : (c.evaluate (n.interpretation power) text).answer with
  | error fault => simp [hanswer]
  | ok x => simpa [hanswer] using Calculator.evaluate_ok_initial (n.interpretation power) hanswer

theorem attempt_initial_answer (power : Float → Float → Float) (n : Notation) (text : String) :
    (attempt power n text .initial).answer = evaluate power n text := rfl

/-- The attempts of a session, each on the calculator that the one before it left. -/
def attempts (power : Float → Float → Float) (n : Notation) :
    List String → Calculator n.Result → List (Attempt n)
  | [], _ => []
  | text :: rest, c =>
    let tried := attempt power n text c
    tried :: attempts power n rest tried.calculator

theorem attempts_initial_answers (texts : List String) :
    (attempts power n texts .initial).map (·.answer) = texts.map (evaluate power n) := by
  induction texts with
  | nil => rfl
  | cons text rest ih => simp [attempts, ih, attempt_initial_answer]

namespace Batch

/-- The rows of a table are the texts of the batch with their answers, in order. -/
theorem evaluate_rows (texts : List String) (c : Calculator n.Result) :
    (evaluate power n texts c).rows =
      texts.zipWith (Row.ofAnswer n) ((attempts power n texts c).map (·.answer)) := by
  induction texts generalizing c with
  | nil => rfl
  | cons text rest ih => simp [evaluate, attempts, ih]

/-- From a new calculator, each row is the expression with its own answer. -/
theorem evaluate_initial_rows (texts : List String) :
    (evaluate power n texts .initial).rows =
      texts.map fun text => .ofAnswer n text (InfixCalculator.evaluate power n text) := by
  rw [evaluate_rows, attempts_initial_answers, List.zipWith_map_right, List.zipWith_self]

end Batch

namespace Interactive

/-- The expressions among the lines, up to the one that takes leave. -/
def expressions (s : Settings) : List (List Char) → List String
  | [] => []
  | line :: rest =>
    match Request.ofLine s line with
    | .leave => []
    | .nothing => expressions s rest
    | .expression text => text :: expressions s rest

/-- What is written in a conversation in which the expressions get these answers: the
prompt before each line, and after an expression its answer. -/
def written (s : Settings) (n : Notation) (prompt : String) :
    List (List Char) → List (Except Fault n.Result) → String
  | [], _ => prompt
  | line :: rest, answers =>
    match Request.ofLine s line, answers with
    | .leave, _ => prompt
    | .nothing, _ => prompt ++ written s n prompt rest answers
    | .expression _, [] => prompt
    | .expression _, answer :: others =>
      prompt ++ (answerLine s n answer ++ written s n prompt rest others)

end Interactive

end InfixCalculator
