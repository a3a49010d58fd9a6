import InfixCalculator.Proofs.Pulls

/-!
Pulls past a fault. A fault leaves the lexer stalled, in the middle of a run of which
nothing is left, and the operator that ended the run is lost. A stalled lexer takes every
piece for a run, also a blank one. The first piece that spells an operand ends this, and
from there on the lexer delivers what a new one would.
-/
namespace InfixCalculator

theorem cutAtOperator_free {piece : List Char} (h : OperatorFree piece) :
    cutAtOperator piece = (piece, none) := by
  induction piece with
  | nil => rfl
  | cons c rest ih =>
    have hc : Operator.ofChar? c = none := h c (by simp)
    rw [cutAtOperator_other rest hc, ih fun d hd => h d (by simp [hd])]

theorem cutAtOperator_append {piece : List Char} (h : OperatorFree piece) (op : Operator)
    (rest : List Char) :
    cutAtOperator (piece ++ op.symbol :: rest) = (piece, some (op, rest)) := by
  induction piece with
  | nil => exact cutAtOperator_operator op rest
  | cons c tail ih =>
    have hc : Operator.ofChar? c = none := h c (by simp)
    rw [List.cons_append, cutAtOperator_other _ hc, ih fun d hd => h d (by simp [hd])]

theorem takeWhile_blank_operator (piece : List Char) (op : Operator) (rest : List Char) :
    (piece ++ op.symbol :: rest).takeWhile isBlank = piece.takeWhile isBlank := by
  rw [List.takeWhile_append]
  split
  · rename_i hwhole
    rw [List.takeWhile_cons_of_neg (by simp [isBlank_symbol]), List.append_nil,
      (List.takeWhile_prefix isBlank).eq_of_length hwhole]
  · rfl

theorem reverse_skipped (piece before : List Char) :
    (piece.dropWhile isBlank).reverse ++ ((piece.takeWhile isBlank).reverse ++ before) =
      piece.reverse ++ before := by
  rw [← List.append_assoc, ← List.reverse_append, List.takeWhile_append_dropWhile]

/-- A piece is an operand or an unknown symbol. -/
theorem readOperand_eq (piece : List Char) :
    (∃ numeral : Numeral, numeral.Spells (trim piece) ∧
      readOperand piece = .ok (.operand numeral.value)) ∨
    (∀ numeral : Numeral, ¬numeral.Spells (trim piece)) ∧
      readOperand piece = .error (.unknownSymbol (String.ofList (trim piece))) := by
  unfold readOperand
  cases hread : Numeral.read? (trim piece) with
  | some numeral => exact .inl ⟨numeral, Numeral.read?_eq_some_iff.mp hread, rfl⟩
  | none =>
    refine .inr ⟨fun numeral h => ?_, rfl⟩
    rw [h.read?] at hread
    contradiction

theorem readOperand_of_spells {piece : List Char} {numeral : Numeral}
    (h : numeral.Spells (trim piece)) : readOperand piece = .ok (.operand numeral.value) := by
  rw [readOperand, h.read?]

theorem readOperand_of_unread {piece : List Char}
    (h : ∀ numeral : Numeral, ¬numeral.Spells (trim piece)) :
    readOperand piece = .error (.unknownSymbol (String.ofList (trim piece))) := by
  rcases readOperand_eq piece with ⟨numeral, spells, -⟩ | ⟨-, hread⟩
  · exact absurd spells (h numeral)
  · exact hread

namespace Lexer

/-- The buffer is empty, and an operator that is due is at hand. -/
structure Settled (l : Lexer) : Prop where
  buffer : l.buffer = []
  due : l.phase = .operatorDue → ∃ op, l.pending = some op

/-- A piece counts as a run once one has begun, and otherwise unless it is blank. -/
def Begins (l : Lexer) (piece : List Char) : Prop :=
  l.phase = .inRun ∨ l.phase = .idle ∧ ∃ c ∈ piece, isBlank c = false

theorem Begins.not_due {l : Lexer} {piece : List Char} (h : l.Begins piece) :
    l.phase ≠ .operatorDue := by
  rcases h with phase | ⟨phase, -⟩ <;> simp [phase]

theorem begins_or_blank {l : Lexer} (phase : l.phase ≠ .operatorDue) (piece : List Char) :
    l.Begins piece ∨ l.phase = .idle ∧ ∀ c ∈ piece, isBlank c := by
  cases hphase : l.phase with
  | operatorDue => contradiction
  | inRun => exact .inl (.inl hphase)
  | idle =>
    by_cases blank : ∀ c ∈ piece, isBlank c
    · exact .inr ⟨rfl, blank⟩
    · push Not at blank
      exact .inl (.inr ⟨hphase, by simpa using blank⟩)

/-- Everything that a pull can do. -/
inductive Pulls (l : Lexer) : Pulled → Lexer → Prop where
  | due {op : Operator} (phase : l.phase = .operatorDue) (pending : l.pending = some op) :
      Pulls l (.ok (some (.operator op))) ⟨l.before, l.rest, [], none, .idle⟩
  | finish (phase : l.phase = .idle) (blank : ∀ c ∈ l.rest, isBlank c) :
      Pulls l (.ok none) ⟨l.rest.reverse ++ l.before, [], [], l.pending, .idle⟩
  | operator {piece rest : List Char} {op : Operator} (phase : l.phase = .idle)
      (text : l.rest = piece ++ op.symbol :: rest) (blank : ∀ c ∈ piece, isBlank c) :
      Pulls l (.ok (some (.operator op)))
        ⟨op.symbol :: (piece.reverse ++ l.before), rest, [], l.pending, .idle⟩
  | lastOperand {numeral : Numeral} (begins : l.Begins l.rest) (free : OperatorFree l.rest)
      (spells : numeral.Spells (trim l.rest)) :
      Pulls l (.ok (some (.operand numeral.value)))
        ⟨l.rest.reverse ++ l.before, [], [], l.pending, .idle⟩
  | operand {piece rest : List Char} {op : Operator} {numeral : Numeral}
      (begins : l.Begins piece) (text : l.rest = piece ++ op.symbol :: rest)
      (free : OperatorFree piece) (spells : numeral.Spells (trim piece)) :
      Pulls l (.ok (some (.operand numeral.value)))
        ⟨op.symbol :: (piece.reverse ++ l.before), rest, [], some op, .operatorDue⟩
  | lastFault (begins : l.Begins l.rest) (free : OperatorFree l.rest)
      (unread : ∀ numeral : Numeral, ¬numeral.Spells (trim l.rest)) :
      Pulls l (.error (.unknownSymbol (String.ofList (trim l.rest))))
        ⟨l.rest.reverse ++ l.before, [], [], l.pending, .inRun⟩
  | fault {piece rest : List Char} {op : Operator} (begins : l.Begins piece)
      (text : l.rest = piece ++ op.symbol :: rest) (free : OperatorFree piece)
      (unread : ∀ numeral : Numeral, ¬numeral.Spells (trim piece)) :
      Pulls l (.error (.unknownSymbol (String.ofList (trim piece))))
        ⟨op.symbol :: (piece.reverse ++ l.before), rest, [], some op, .inRun⟩

/-- A run that has begun, up to the end of the text or an operator. -/
theorem collect_begun {l : Lexer} {piece : List Char} (buffer : l.buffer = [])
    (begins : l.Begins piece) (skipped : l.rest.takeWhile isBlank = piece.takeWhile isBlank)
    (rest : List Char) :
    l.skipBlanks.collect (piece.dropWhile isBlank) rest =
      ⟨piece.reverse ++ l.before, rest, piece.dropWhile isBlank, l.pending, .inRun⟩ := by
  simp only [collect, skipBlanks, buffer, skipped, reverse_skipped, List.nil_append]
  congr 1
  rcases begins with phase | ⟨-, c, hc, hvisible⟩
  · simp [phase]
  · have hrun : piece.dropWhile isBlank ≠ [] := by
      rw [ne_eq, List.dropWhile_eq_nil_iff]
      intro hblank
      simp [hblank c hc] at hvisible
    simp [hrun]

/-- Blanks do not begin a run. -/
theorem collect_idle {l : Lexer} {piece : List Char} (buffer : l.buffer = [])
    (phase : l.phase = .idle) (blank : ∀ c ∈ piece, isBlank c)
    (skipped : l.rest.takeWhile isBlank = piece.takeWhile isBlank) (rest : List Char) :
    l.skipBlanks.collect (piece.dropWhile isBlank) rest =
      ⟨piece.reverse ++ l.before, rest, [], l.pending, .idle⟩ := by
  have hrun : piece.dropWhile isBlank = [] := List.dropWhile_eq_nil_iff.mpr blank
  have hpiece := reverse_skipped piece l.before
  rw [hrun, List.reverse_nil, List.nil_append] at hpiece
  simp [collect, skipBlanks, buffer, skipped, hpiece, hrun, phase]

/-- A pull that reads on to the end of the text. -/
theorem pull_end {l : Lexer} (phase : l.phase ≠ .operatorDue) (free : OperatorFree l.rest) :
    l.pull = (l.skipBlanks.collect (l.rest.dropWhile isBlank) []).meetEnd := by
  have hcut : cutAtOperator l.skipBlanks.rest = (l.rest.dropWhile isBlank, none) :=
    (cutAtOperator_dropWhile l.rest).trans (by rw [cutAtOperator_free free])
  unfold pull
  split
  · contradiction
  · rw [advance, hcut]

/-- A pull that reads on to an operator. -/
theorem pull_stop {l : Lexer} (phase : l.phase ≠ .operatorDue) {piece rest : List Char}
    {op : Operator} (text : l.rest = piece ++ op.symbol :: rest) (free : OperatorFree piece) :
    l.pull = (l.skipBlanks.collect (piece.dropWhile isBlank) rest).meetOperator op := by
  have hcut : cutAtOperator l.skipBlanks.rest = (piece.dropWhile isBlank, some (op, rest)) :=
    (cutAtOperator_dropWhile l.rest).trans (by rw [text, cutAtOperator_append free])
  unfold pull
  split
  · contradiction
  · rw [advance, hcut]

theorem Pulls.pull_eq {l next : Lexer} {pulled : Pulled} (settled : l.Settled)
    (h : Pulls l pulled next) : l.pull = (pulled, next) := by
  have buffer := settled.buffer
  have skipped {piece rest : List Char} {op : Operator}
      (text : l.rest = piece ++ op.symbol :: rest) :
      l.rest.takeWhile isBlank = piece.takeWhile isBlank := by
    rw [text, takeWhile_blank_operator]
  cases h with
  | due phase pending =>
    unfold pull
    rw [phase, pending]
    simp [buffer]
  | finish phase blank =>
    rw [pull_end (by simp [phase]) (operatorFree_of_blank blank),
      collect_idle buffer phase blank rfl]
    rfl
  | operator phase text blank =>
    rw [pull_stop (by simp [phase]) text (operatorFree_of_blank blank),
      collect_idle buffer phase blank (skipped text)]
    rfl
  | lastOperand begins free spells =>
    rw [pull_end begins.not_due free, collect_begun buffer begins rfl]
    simp [meetEnd, flush, readOperand_dropWhile, readOperand_of_spells spells]
  | operand begins text free spells =>
    rw [pull_stop begins.not_due text free, collect_begun buffer begins (skipped text)]
    simp [meetOperator, flush, readOperand_dropWhile, readOperand_of_spells spells]
  | lastFault begins free unread =>
    rw [pull_end begins.not_due free, collect_begun buffer begins rfl]
    simp [meetEnd, flush, readOperand_dropWhile, readOperand_of_unread unread]
  | fault begins text free unread =>
    rw [pull_stop begins.not_due text free, collect_begun buffer begins (skipped text)]
    simp [meetOperator, flush, readOperand_dropWhile, readOperand_of_unread unread]

/-- One of the rules applies to every settled lexer. -/
theorem exists_pulls {l : Lexer} (settled : l.Settled) : ∃ pulled next, Pulls l pulled next := by
  by_cases phase : l.phase = .operatorDue
  · obtain ⟨op, pending⟩ := settled.due phase
    exact ⟨_, _, .due phase pending⟩
  · generalize htext : l.rest = text
    induction text using text_induction with
    | piece piece free =>
      subst htext
      rcases begins_or_blank phase l.rest with begins | ⟨idle, blank⟩
      · rcases readOperand_eq l.rest with ⟨numeral, spells, -⟩ | ⟨unread, -⟩
        · exact ⟨_, _, .lastOperand begins free spells⟩
        · exact ⟨_, _, .lastFault begins free unread⟩
      · exact ⟨_, _, .finish idle blank⟩
    | more piece op rest free _ =>
      rcases begins_or_blank phase piece with begins | ⟨idle, blank⟩
      · rcases readOperand_eq piece with ⟨numeral, spells, -⟩ | ⟨unread, -⟩
        · exact ⟨_, _, .operand begins htext free spells⟩
        · exact ⟨_, _, .fault begins htext free unread⟩
      · exact ⟨_, _, .operator idle htext blank⟩

theorem pull_pulls {l : Lexer} (settled : l.Settled) : Pulls l l.pull.1 l.pull.2 := by
  obtain ⟨pulled, next, h⟩ := exists_pulls settled
  rw [h.pull_eq settled]
  exact h

theorem Pulls.settled {l next : Lexer} {pulled : Pulled} (h : Pulls l pulled next) :
    next.Settled := by
  cases h with
  | operand => exact ⟨rfl, fun _ => ⟨_, rfl⟩⟩
  | due | finish | operator | lastOperand | lastFault | fault => exact ⟨rfl, nofun⟩

theorem Pulls.text_eq {l next : Lexer} {pulled : Pulled} (h : Pulls l pulled next) :
    next.text = l.text := by
  cases h with
  | due => rfl
  | finish | lastOperand | lastFault => simp [Lexer.text]
  | operator _ text | operand _ text | fault _ text => simp [Lexer.text, text]

theorem settled_ofText (text : List Char) : (ofText text).Settled := ⟨rfl, nofun⟩

/-- Pulls keep the lexer settled and the text as it is. -/
theorem afterPulls_settled {l : Lexer} (h : l.Settled) (k : Nat) :
    (l.afterPulls k).Settled ∧ (l.afterPulls k).text = l.text := by
  induction k generalizing l with
  | zero => exact ⟨h, rfl⟩
  | succ k ih =>
    have hpull := pull_pulls h
    obtain ⟨hsettled, htext⟩ := ih hpull.settled
    exact ⟨hsettled, htext.trans hpull.text_eq⟩

theorem afterPulls_succ (l : Lexer) (k : Nat) :
    l.afterPulls (k + 1) = (l.afterPulls k).pull.2 := by
  induction k generalizing l with
  | zero => rfl
  | succ k ih => exact ih l.pull.2

/-- Lexers that stand before the same text in the same phase. -/
structure Alike (l m : Lexer) : Prop where
  rest : l.rest = m.rest
  phase : l.phase = m.phase
  pending : l.phase = .operatorDue → l.pending = m.pending

/-- Lexers that are alike pull the same and stay alike. -/
theorem Alike.pulls {l m next : Lexer} {pulled : Pulled} (h : Alike l m)
    (hpulls : Pulls l pulled next) : ∃ other, Pulls m pulled other ∧ Alike next other := by
  obtain ⟨before, rest, buffer, pending, phase⟩ := l
  obtain ⟨before', rest', buffer', pending', phase'⟩ := m
  obtain ⟨hrest, hphase, hpending⟩ := h
  obtain rfl : rest = rest' := hrest
  obtain rfl : phase = phase' := hphase
  cases hpulls with
  | due phase pending =>
    exact ⟨_, .due phase ((hpending phase).symm.trans pending), ⟨rfl, rfl, nofun⟩⟩
  | finish phase blank => exact ⟨_, .finish phase blank, ⟨rfl, rfl, nofun⟩⟩
  | operator phase text blank => exact ⟨_, .operator phase text blank, ⟨rfl, rfl, nofun⟩⟩
  | lastOperand begins free spells =>
    exact ⟨_, .lastOperand begins free spells, ⟨rfl, rfl, nofun⟩⟩
  | operand begins text free spells =>
    exact ⟨_, .operand begins text free spells, ⟨rfl, rfl, fun _ => rfl⟩⟩
  | lastFault begins free unread => exact ⟨_, .lastFault begins free unread, ⟨rfl, rfl, nofun⟩⟩
  | fault begins text free unread =>
    exact ⟨_, .fault begins text free unread, ⟨rfl, rfl, nofun⟩⟩

theorem Alike.delivery_eq {l m : Lexer} (h : Alike l m) (hl : l.Settled) (hm : m.Settled) :
    l.delivery = m.delivery := by
  funext k
  induction k generalizing l m with
  | zero =>
    obtain ⟨other, hother, -⟩ := h.pulls (pull_pulls hl)
    rw [delivery_zero, delivery_zero, hother.pull_eq hm]
  | succ k ih =>
    obtain ⟨other, hother, halike⟩ := h.pulls (pull_pulls hl)
    rw [delivery_succ, delivery_succ, hother.pull_eq hm]
    exact ih halike (pull_pulls hl).settled hother.settled

theorem delivery_of_pulls {l next : Lexer} {pulled : Pulled} (settled : l.Settled)
    (h : Pulls l pulled next) :
    l.delivery 0 = pulled ∧ (fun k => l.delivery (k + 1)) = next.delivery := by
  have hpull := h.pull_eq settled
  exact ⟨by rw [delivery_zero, hpull], funext fun k => by rw [delivery_succ, hpull]⟩

/-- Whether a run had begun makes no difference where an operand comes first. -/
theorem delivery_of_operand {l : Lexer} {numeral : Numeral} (settled : l.Settled)
    (phase : l.phase = .inRun) (spells : numeral.Spells (trim (pieces l.rest).1)) :
    l.delivery = (ofText l.rest).delivery := by
  have hnew := settled_ofText l.rest
  have visible : ∃ c ∈ (pieces l.rest).1, isBlank c = false := by
    by_contra blank
    push Not at blank
    exact spells.ne_nil (trim_of_blank (by simpa using blank))
  generalize htext : l.rest = text at spells visible
  -- Both pull the operand and are alike from there on.
  have hboth : ∃ token next other, Pulls l (.ok (some token)) next ∧
      Pulls (ofText text) (.ok (some token)) other ∧ Alike next other := by
    induction text using text_induction with
    | piece piece free =>
      rw [pieces_of_free free] at spells visible
      exact ⟨_, _, _, .lastOperand (.inl phase) (htext ▸ free) (htext ▸ spells),
        .lastOperand (.inr ⟨rfl, visible⟩) free spells, ⟨rfl, rfl, nofun⟩⟩
    | more piece op rest free _ =>
      rw [pieces_append_operator, pieces_of_free free] at spells visible
      exact ⟨_, _, _, .operand (.inl phase) htext free spells,
        .operand (.inr ⟨rfl, visible⟩) rfl free spells, ⟨rfl, rfl, fun _ => rfl⟩⟩
  obtain ⟨token, next, other, hl, hm, halike⟩ := hboth
  obtain ⟨hzero, hsucc⟩ := delivery_of_pulls settled hl
  obtain ⟨hzero', hsucc'⟩ := delivery_of_pulls (settled_ofText text) hm
  have hlater := halike.delivery_eq hl.settled hm.settled
  funext k
  cases k with
  | zero => rw [hzero, hzero']
  | succ k => exact (congrFun hsucc k).trans ((congrFun hlater k).trans (congrFun hsucc' k).symm)

end Lexer

/-- What is delivered of a text behind a fault. Each piece that spells no operand is an
unknown symbol, also a blank one, and takes the operator behind it along. The first
operand is delivered as by a new lexer, with all that follows. -/
inductive Resumes : List Char → (Nat → Pulled) → Prop where
  | operand {text : List Char} {numeral : Numeral}
      (spells : numeral.Spells (trim (pieces text).1)) : Resumes text (Lexer.ofText text).delivery
  | lost {piece rest : List Char} {op : Operator} {delivery : Nat → Pulled}
      (free : OperatorFree piece) (unread : ∀ numeral : Numeral, ¬numeral.Spells (trim piece))
      (fault : delivery 0 = .error (.unknownSymbol (String.ofList (trim piece))))
      (later : Resumes rest fun k => delivery (k + 1)) :
      Resumes (piece ++ op.symbol :: rest) delivery
  | never {piece : List Char} {delivery : Nat → Pulled}
      (free : OperatorFree piece) (unread : ∀ numeral : Numeral, ¬numeral.Spells (trim piece))
      (fault : delivery 0 = .error (.unknownSymbol (String.ofList (trim piece))))
      (later : ∀ k, delivery (k + 1) = .error (.unknownSymbol "")) : Resumes piece delivery

namespace Lexer

theorem not_spells_nil (numeral : Numeral) : ¬numeral.Spells (trim []) := fun h => h.ne_nil rfl

/-- Stalled at the end of its text, a lexer never gets away. -/
theorem delivery_of_stalled_end {l : Lexer} (settled : l.Settled) (phase : l.phase = .inRun)
    (ended : l.rest = []) (k : Nat) : l.delivery k = .error (.unknownSymbol "") := by
  induction k generalizing l with
  | zero =>
    have hpull : Pulls l _ _ := .lastFault (.inl phase) (ended ▸ nofun) (ended ▸ not_spells_nil)
    rw [(delivery_of_pulls settled hpull).1, ended]
    rfl
  | succ k ih =>
    have hpull : Pulls l _ _ := .lastFault (.inl phase) (ended ▸ nofun) (ended ▸ not_spells_nil)
    exact (congrFun (delivery_of_pulls settled hpull).2 k).trans (ih hpull.settled rfl rfl)

/-- A settled lexer in the middle of a run delivers the rest of its text in this way. -/
theorem resumes_of_stalled {l : Lexer} (settled : l.Settled) (phase : l.phase = .inRun) :
    Resumes l.rest l.delivery := by
  generalize htext : l.rest = text
  induction text using text_induction generalizing l with
  | piece piece free =>
    subst htext
    rcases readOperand_eq l.rest with ⟨numeral, spells, -⟩ | ⟨unread, -⟩
    · have hfirst : numeral.Spells (trim (pieces l.rest).1) := by rwa [pieces_of_free free]
      rw [delivery_of_operand settled phase hfirst]
      exact .operand hfirst
    · have hpull : Pulls l _ _ := .lastFault (.inl phase) free unread
      obtain ⟨hzero, hsucc⟩ := delivery_of_pulls settled hpull
      refine .never free unread hzero fun k => (congrFun hsucc k).trans ?_
      exact delivery_of_stalled_end hpull.settled rfl rfl k
  | more piece op rest free ih =>
    rcases readOperand_eq piece with ⟨numeral, spells, -⟩ | ⟨unread, -⟩
    · have hfirst : numeral.Spells (trim (pieces l.rest).1) := by
        rwa [htext, pieces_append_operator, pieces_of_free free]
      rw [delivery_of_operand settled phase hfirst, ← htext]
      exact .operand hfirst
    · have hpull : Pulls l _ _ := .fault (.inl phase) htext free unread
      obtain ⟨hzero, hsucc⟩ := delivery_of_pulls settled hpull
      refine .lost free unread hzero ?_
      rw [hsucc]
      exact ih hpull.settled rfl rfl

end Lexer

/-- A pull that ends in a fault names the piece of the text where it began, which spells no
operand. If an operator ended the piece, it is not delivered, and what is delivered from then
on is what `Resumes` says of the text behind it; at the end of the text a fault without a
symbol is delivered for ever. -/
theorem lexer_stalls_at_fault (text : String) (k : Nat) {fault : Fault}
    (h : (Lexer.ofText text.toList).delivery k = .error fault) :
    ∃ front piece : List Char,
      front.length = ((Lexer.ofText text.toList).afterPulls k).position ∧
      OperatorFree piece ∧ (∀ numeral : Numeral, ¬numeral.Spells (trim piece)) ∧
      fault = .unknownSymbol (String.ofList (trim piece)) ∧
      let later := ((Lexer.ofText text.toList).afterPulls (k + 1)).delivery
      (text.toList = front ++ piece ∧ ∀ j, later j = .error (.unknownSymbol "")) ∨
        ∃ (op : Operator) (rest : List Char),
          text.toList = front ++ piece ++ op.symbol :: rest ∧ Resumes rest later := by
  obtain ⟨settled, htext⟩ := Lexer.afterPulls_settled (Lexer.settled_ofText text.toList) k
  rw [Lexer.afterPulls_succ]
  rw [Lexer.delivery] at h
  generalize (Lexer.ofText text.toList).afterPulls k = l at h settled htext ⊢
  have hpull := Lexer.pull_pulls settled
  generalize l.pull.2 = next at hpull ⊢
  rw [h] at hpull
  have stalled := hpull.settled
  change l.before.reverse ++ l.rest = text.toList at htext
  cases hpull with
  | lastFault begins free unread =>
    refine ⟨l.before.reverse, l.rest, List.length_reverse, free, unread, rfl,
      .inl ⟨htext.symm, ?_⟩⟩
    exact Lexer.delivery_of_stalled_end stalled rfl rfl
  | @fault piece rest op begins place free unread =>
    refine ⟨l.before.reverse, piece, List.length_reverse, free, unread, rfl,
      .inr ⟨op, rest, ?_, ?_⟩⟩
    · rw [← htext, place, List.append_assoc]
    · exact Lexer.resumes_of_stalled stalled rfl

/-- Behind a symbol at the end of its text a lexer delivers faults without end. -/
theorem lexer_stalls_at_fault_ended :
    let l := Lexer.ofText "ab".toList
    l.delivery 0 = .error (.unknownSymbol "ab") ∧
      ∀ j, (l.afterPulls 1).delivery j = .error (.unknownSymbol "") := by
  intro l
  have hfault : l.delivery 0 = .error (.unknownSymbol "ab") := rfl
  refine ⟨hfault, ?_⟩
  obtain ⟨front, piece, -, -, -, -, ⟨-, later⟩ | ⟨op, rest, htext, -⟩⟩ :=
    lexer_stalls_at_fault "ab" 0 hfault
  · exact later
  · have hop : op.symbol ∈ ['a', 'b'] := by
      change op.symbol ∈ "ab".toList
      simp [htext]
    have hsome := Operator.ofChar?_symbol op
    rcases List.mem_pair.mp hop with ha | hb
    · rw [ha] at hsome
      contradiction
    · rw [hb] at hsome
      contradiction

/-- The sum sign ends the symbol and is lost: the operand is delivered next. -/
theorem lexer_loses_operator :
    let l := Lexer.ofText "ab+1".toList
    l.delivery 0 = .error (.unknownSymbol "ab") ∧
      l.delivery 1 = .ok (some (.operand (Numeral.value ⟨1, 0⟩))) ∧
      l.delivery 1 ≠ .ok (some (.operator (.binary .add))) := by
  refine ⟨rfl, rfl, ?_⟩
  exact nofun

end InfixCalculator
