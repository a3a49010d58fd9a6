import InfixCalculator.Fault
import InfixCalculator.Token
import InfixCalculator.Text.Blank

/-!
Tokens are pulled from a text one at a time. An operator ends the run of other
characters before it, and both are tokens: the run comes out first and the
operator waits for the next pull. A lexer can be pulled again after a fault; it
then goes on from the state in which the fault left it.
-/
namespace InfixCalculator

/-- The operand that a run of characters spells, blanks at its ends aside. -/
def readOperand (run : List Char) : Except Fault Token :=
  match Numeral.read? (trim run) with
  | some numeral => .ok (.operand numeral.value)
  | none => .error (.unknownSymbol (String.ofList (trim run)))

theorem readOperand_nil : readOperand [] = .error (.unknownSymbol (String.ofList [])) := rfl

/-- The characters before the first operator of a text, then that operator and
what follows it. -/
def cutAtOperator : List Char → List Char × Option (Operator × List Char)
  | [] => ([], none)
  | c :: rest =>
    match Operator.ofChar? c with
    | some op => ([], some (op, rest))
    | none => (c :: (cutAtOperator rest).1, (cutAtOperator rest).2)

@[simp] theorem cutAtOperator_nil : cutAtOperator [] = ([], none) := rfl

theorem cutAtOperator_operator (op : Operator) (rest : List Char) :
    cutAtOperator (op.symbol :: rest) = ([], some (op, rest)) := by
  simp [cutAtOperator]

theorem cutAtOperator_other {c : Char} (rest : List Char) (h : Operator.ofChar? c = none) :
    cutAtOperator (c :: rest) = (c :: (cutAtOperator rest).1, (cutAtOperator rest).2) := by
  simp [cutAtOperator, h]

theorem length_cutAtOperator (text : List Char) :
    (cutAtOperator text).1.length +
      ((cutAtOperator text).2.elim 0 fun stop => stop.2.length + 1) = text.length := by
  induction text with
  | nil => rfl
  | cons c rest ih =>
    unfold cutAtOperator
    split
    · simp
    · simp only [List.length_cons]
      omega

/-- What a lexer is in the middle of: nothing, a run of characters, or the
delivery of the operator that ended a run. -/
inductive LexerPhase where
  | idle
  | inRun
  | operatorDue
  deriving DecidableEq, Repr

def LexerPhase.name : LexerPhase → String
  | .idle => "empty"
  | .inRun => "accumulating"
  | .operatorDue => "pending_operator"

/-- A place in a text: the characters before it, nearest first, and the rest. -/
structure Lexer where
  before : List Char
  rest : List Char
  buffer : List Char
  pending : Option Operator
  phase : LexerPhase
  deriving DecidableEq, Repr

/-- What a pull delivers: a token, or none at the end of the text. -/
abbrev Pulled := Except Fault (Option Token)

/-- The tokens of a text, and the fault that ended them if one did. -/
structure Scan where
  tokens : List Token
  fault : Option Fault

def Scan.push (token : Token) (s : Scan) : Scan := { s with tokens := token :: s.tokens }

namespace Lexer

def ofText (text : List Char) : Lexer := ⟨[], text, [], none, .idle⟩

def text (l : Lexer) : List Char := l.before.reverse ++ l.rest

def position (l : Lexer) : Nat := l.before.length

def restart (l : Lexer) : Lexer := ofText l.text

def skipBlanks (l : Lexer) : Lexer :=
  { l with
    before := (l.rest.takeWhile isBlank).reverse ++ l.before
    rest := l.rest.dropWhile isBlank }

/-- Empties the buffer. The phase changes only if the buffer spelled an operand. -/
def flush (l : Lexer) (next : LexerPhase) : Pulled × Lexer :=
  match readOperand l.buffer with
  | .ok token => (.ok (some token), { l with buffer := [], phase := next })
  | .error fault => (.error fault, { l with buffer := [] })

/-- Moves past the characters before the next operator, into the buffer. -/
def collect (l : Lexer) (run rest : List Char) : Lexer :=
  { l with
    before := run.reverse ++ l.before
    rest := rest
    buffer := l.buffer ++ run
    phase := if run.isEmpty then l.phase else .inRun }

/-- The end of the text delivers the run before it, if there is one. -/
def meetEnd (l : Lexer) : Pulled × Lexer :=
  if l.phase = .inRun then l.flush .idle else (.ok none, l)

/-- An operator delivers the run before it and waits, or is delivered itself. -/
def meetOperator (l : Lexer) (op : Operator) : Pulled × Lexer :=
  if l.phase = .inRun then
    { l with before := op.symbol :: l.before, pending := some op }.flush .operatorDue
  else (.ok (some (.operator op)), { l with before := op.symbol :: l.before })

/-- Reads up to and including the next operator, or to the end of the text. -/
def advance (l : Lexer) : Pulled × Lexer :=
  match cutAtOperator l.rest with
  | (run, none) => (l.collect run []).meetEnd
  | (run, some (op, rest)) => (l.collect run rest).meetOperator op

/-- The next token, or none at the end of the text. -/
def pull (l : Lexer) : Pulled × Lexer :=
  match l.phase, l.pending with
  | .operatorDue, some op =>
    (.ok (some (.operator op)), { l with pending := none, phase := .idle })
  | _, _ => l.skipBlanks.advance

/-- What is left to deliver: the unread characters, and one for a pending
operator. -/
def remaining (l : Lexer) : Nat :=
  l.buffer.length + l.rest.length + l.pending.toList.length

@[simp] theorem text_ofText (text : List Char) : (ofText text).text = text := rfl
@[simp] theorem restart_ofText (text : List Char) : (ofText text).restart = ofText text := rfl
@[simp] theorem position_ofText (text : List Char) : (ofText text).position = 0 := rfl

theorem flush_token {l l' : Lexer} {next : LexerPhase} {token : Token}
    (h : l.flush next = (.ok (some token), l')) :
    l.buffer ≠ [] ∧ l' = { l with buffer := [], phase := next } := by
  unfold flush at h
  split at h
  · rename_i found
    refine ⟨fun empty => ?_, by simp_all⟩
    rw [empty, readOperand_nil] at found
    contradiction
  · simp at h

@[simp] theorem remaining_skipBlanks_le (l : Lexer) :
    l.skipBlanks.remaining ≤ l.remaining := by
  have := (List.dropWhile_suffix isBlank (l := l.rest)).length_le
  simp only [remaining, skipBlanks]
  omega

theorem remaining_meetEnd {l l' : Lexer} {token : Token}
    (h : l.meetEnd = (.ok (some token), l')) : l'.remaining < l.remaining := by
  unfold meetEnd at h
  split at h
  · obtain ⟨filled, rfl⟩ := flush_token h
    have : 0 < l.buffer.length := List.length_pos_iff.mpr filled
    simp only [remaining, List.length_nil]
    omega
  · simp at h

theorem remaining_meetOperator {l l' : Lexer} {op : Operator} {token : Token}
    (h : l.meetOperator op = (.ok (some token), l')) : l'.remaining ≤ l.remaining := by
  unfold meetOperator at h
  split at h
  · obtain ⟨filled, rfl⟩ := flush_token h
    have : 0 < l.buffer.length := List.length_pos_iff.mpr filled
    simp only [remaining, List.length_nil, Option.toList_some, List.length_singleton]
    omega
  · simp only [Prod.mk.injEq] at h
    obtain ⟨-, rfl⟩ := h
    exact Nat.le_refl _

theorem remaining_collect (l : Lexer) (run rest : List Char) :
    (l.collect run rest).remaining =
      l.buffer.length + run.length + rest.length + l.pending.toList.length := by
  simp [remaining, collect]

theorem remaining_advance {l l' : Lexer} {token : Token}
    (h : l.advance = (.ok (some token), l')) : l'.remaining < l.remaining := by
  have count := length_cutAtOperator l.rest
  unfold advance at h
  split at h <;> rename_i cut <;> simp only [cut, Option.elim] at count
  · have := remaining_meetEnd h
    rw [remaining_collect] at this
    simp only [remaining, List.length_nil] at this ⊢
    omega
  · have := remaining_meetOperator h
    rw [remaining_collect] at this
    simp only [remaining] at this ⊢
    omega

/-- Every token uses up some of what is left. -/
theorem remaining_pull {l l' : Lexer} {token : Token}
    (h : l.pull = (.ok (some token), l')) : l'.remaining < l.remaining := by
  unfold pull at h
  split at h
  · rename_i pending
    simp only [Prod.mk.injEq] at h
    obtain ⟨-, rfl⟩ := h
    simp [remaining, pending]
  · exact Nat.lt_of_lt_of_le (remaining_advance h) l.remaining_skipBlanks_le

/-- The tokens up to the end of the text or the first fault. -/
def scan (l : Lexer) : Scan :=
  match _h : l.pull with
  | (.ok (some token), next) => next.scan.push token
  | (.ok none, _) => ⟨[], none⟩
  | (.error fault, _) => ⟨[], some fault⟩
termination_by l.remaining
decreasing_by exact remaining_pull _h

end Lexer

def scanText (text : List Char) : Scan := (Lexer.ofText text).scan

/-- All tokens of a text, or the first fault. -/
def tokenize (text : String) : Except Fault (List Token) :=
  let s := scanText text.toList
  match s.fault with
  | none => .ok s.tokens
  | some fault => .error fault

end InfixCalculator
