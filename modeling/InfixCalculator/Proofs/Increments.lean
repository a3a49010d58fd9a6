import InfixCalculator.Platform
import InfixCalculator.Proofs.Arrival
import InfixCalculator.Proofs.Reading

/-!
A text met in two parts. Where the cut runs through no literal, the parts say what the
whole says, and evaluating the whole is accepting the first part and then evaluating the
second on the stacks that it left.
-/
namespace InfixCalculator

variable {α : Type} (I : Interpretation α)

/-- A cut beside an operator, but for blanks, or with nothing but blanks on one side. -/
inductive CleanCut (front back : List Char) : Prop where
  | operatorBefore {op : Operator} (h : front.reverse.find? (!isBlank ·) = some op.symbol)
  | operatorBehind {op : Operator} (h : back.find? (!isBlank ·) = some op.symbol)
  | blankBefore (h : ∀ c ∈ front, isBlank c)
  | blankBehind (h : ∀ c ∈ back, isBlank c)

/-! Lexemes -/

theorem lexemes_of_blank {gap : List Char} (h : ∀ c ∈ gap, isBlank c) : lexemes gap = [] := by
  rw [← List.append_nil gap, lexemes_blank_append h]
  rfl

/-- The first visible character of a text stands behind blanks. -/
theorem exists_gap {text : List Char} {c : Char} (h : text.find? (!isBlank ·) = some c) :
    ∃ gap rest, text = gap ++ c :: rest ∧ ∀ d ∈ gap, isBlank d := by
  obtain ⟨-, gap, rest, htext, hgap⟩ := List.find?_eq_some_iff_append.mp h
  exact ⟨gap, rest, htext, fun d hd => by simpa using hgap d hd⟩

/-- At a clean cut, the parts of a text say what the whole says. -/
theorem CleanCut.lexemes_append {front back : List Char} (h : CleanCut front back) :
    lexemes (front ++ back) = lexemes front ++ lexemes back := by
  cases h with
  | @operatorBefore op h =>
    obtain ⟨gap, before, hfront, hgap⟩ := exists_gap h
    obtain rfl : front = before.reverse ++ op.symbol :: gap.reverse := by
      rw [← List.reverse_reverse front, hfront]
      simp
    have hblank : ∀ c ∈ gap.reverse, isBlank c := fun c hc => hgap c (List.mem_reverse.mp hc)
    rw [List.append_assoc, List.cons_append, lexemes_append_operator, lexemes_append_operator,
      lexemes_blank_append hblank, lexemes_of_blank hblank, List.append_assoc]
    rfl
  | @operatorBehind op h =>
    obtain ⟨gap, rest, rfl, hgap⟩ := exists_gap h
    rw [← List.append_assoc, lexemes_append_operator, lexemes_append_operator,
      lexemes_append_blank hgap, lexemes_of_blank hgap]
    rfl
  | blankBefore h => rw [lexemes_blank_append h, lexemes_of_blank h, List.nil_append]
  | blankBehind h => rw [lexemes_append_blank h, lexemes_of_blank h, List.append_nil]

namespace Calculator

def acceptLexemes : List Lexeme → Calculator α → Run α Unit
  | [], c => .ok () c
  | .ok token :: rest, c => (accept I token c).andThen fun _ c => acceptLexemes rest c
  | .error fault :: _, c => .fail fault c

/-- What a text does to the calculator is what its lexemes do, one after another. -/
theorem acceptText_eq_acceptLexemes (text : List Char) (c : Calculator α) :
    acceptText I text c = acceptLexemes I (lexemes text) c := by
  rw [acceptText_eq_acceptScan, scanText_eq_ofLexemes]
  generalize lexemes text = found
  induction found generalizing c with
  | nil => rfl
  | cons lexeme rest ih =>
    cases lexeme with
    | error fault => rfl
    | ok token =>
      rw [Scan.ofLexemes, acceptScan_push, acceptLexemes]
      congr 1
      funext _ c
      exact ih c

theorem acceptLexemes_append (first second : List Lexeme) (c : Calculator α) :
    acceptLexemes I (first ++ second) c =
      (acceptLexemes I first c).andThen fun _ c => acceptLexemes I second c := by
  induction first generalizing c with
  | nil => rfl
  | cons lexeme rest ih =>
    cases lexeme with
    | error fault => rfl
    | ok token =>
      simp only [List.cons_append, acceptLexemes, Run.andThen_assoc]
      congr 1
      funext _ c
      exact ih c

/-- Behind a clean cut, a text is accepted on what its first part left. -/
theorem acceptText_append {front back : List Char} (h : CleanCut front back)
    (c : Calculator α) :
    acceptText I (front ++ back) c =
      (acceptText I front c).andThen fun _ c => acceptText I back c := by
  simp only [acceptText_eq_acceptLexemes, h.lexemes_append, acceptLexemes_append]

end Calculator

/-- At a clean cut, evaluating a text on any stacks is accepting its first part and, unless
that stopped at a fault, evaluating the second on the same calculator. So a fault of the
first part is the outcome, whatever follows. -/
theorem evaluate_in_parts (power : Float → Float → Float) (n : Notation)
    (c : Calculator n.Result) {front back : String} (h : CleanCut front.toList back.toList) :
    c.evaluate (n.interpretation power) (front ++ back) =
      (c.acceptText (n.interpretation power) front.toList).andThen
        (fun _ c => c.evaluate (n.interpretation power) back) ∧
    ∀ fault, (c.acceptText (n.interpretation power) front.toList).answer = .error fault →
      (c.evaluate (n.interpretation power) (front ++ back)).answer = .error fault ∧
      (c.evaluate (n.interpretation power) (front ++ back)).calculator =
        (c.acceptText (n.interpretation power) front.toList).calculator := by
  have hparts : c.evaluate (n.interpretation power) (front ++ back) =
      (c.acceptText (n.interpretation power) front.toList).andThen
        fun _ c => c.evaluate (n.interpretation power) back := by
    rw [Calculator.evaluate, String.toList_append, Calculator.acceptText_append _ h,
      Run.andThen_assoc]
    rfl
  refine ⟨hparts, fun fault hfault => ?_⟩
  rw [hparts]
  exact Run.andThen_of_error hfault

/-- A group that was open before the text, and one that was not. -/
theorem evaluate_in_parts_group :
    let c : Calculator String := ⟨["left"], [.binary .mul, .leftParen, .leftParen]⟩
    CleanCut "2) + ".toList "3".toList ∧
      c.evaluate .operatorLast ("2) + " ++ "3") =
        (c.acceptText .operatorLast "2) + ".toList).andThen
          (fun _ c => c.evaluate .operatorLast "3") ∧
      (Calculator.initial.evaluate .operatorLast ("8)) + " ++ "$ 2")).answer =
        .error .strayRightParen := by
  intro c
  have hcut : CleanCut "2) + ".toList "3".toList := by
    refine .operatorBefore (?_ : _ = some (Operator.binary .add).symbol)
    decide
  have hcut' : CleanCut "8)) + ".toList "$ 2".toList := by
    refine .operatorBefore (?_ : _ = some (Operator.binary .add).symbol)
    decide
  have hfault : (Calculator.initial.acceptText .operatorLast "8)) + ".toList).answer =
      .error .strayRightParen := by
    rw [Calculator.acceptText, scanText_eq_scanPieces]
    rfl
  have hopen := evaluate_in_parts Platform.power .operatorLast c hcut
  have hclosed := evaluate_in_parts Platform.power .operatorLast .initial hcut'
  exact ⟨hcut, hopen.1, (hclosed.2 _ hfault).1⟩

end InfixCalculator
