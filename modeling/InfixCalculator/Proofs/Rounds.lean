import InfixCalculator.Proofs.Arrival

/-!
The loops of an evaluation. In one, tokens are pulled and accepted, and each round uses up
some of the text; in the other, operators are taken off, one in each round. Both stop, after
no more rounds than there are characters or operators, with what is computed of the whole
text or the whole group.
-/
namespace InfixCalculator

variable {σ β : Type}

/-- A loop that goes round so many times before it stops. -/
inductive Loops (body : σ → σ ⊕ β) : Nat → σ → β → Prop where
  | stop {s : σ} {b : β} (h : body s = .inr b) : Loops body 0 s b
  | again {rounds : Nat} {s t : σ} {b : β} (h : body s = .inl t)
      (later : Loops body rounds t b) : Loops body (rounds + 1) s b

/-- If something gets smaller in each round and the outcome does not change, the loop stops
with that outcome. -/
theorem exists_loops {body : σ → σ ⊕ β} (size : σ → Nat) (outcome : σ → β)
    (smaller : ∀ s t, body s = .inl t → size t < size s)
    (same : ∀ s, outcome s = (body s).elim outcome id) (s : σ) :
    ∃ rounds ≤ size s, Loops body rounds s (outcome s) := by
  induction hsize : size s using Nat.strongRecOn generalizing s with
  | ind n ih =>
    have hsame := same s
    cases hbody : body s with
    | inr b =>
      rw [hbody] at hsame
      refine ⟨0, Nat.zero_le n, ?_⟩
      rw [hsame]
      exact .stop hbody
    | inl t =>
      rw [hbody] at hsame
      have hsmaller : size t < n := hsize ▸ smaller s t hbody
      obtain ⟨rounds, hrounds, hloops⟩ := ih (size t) hsmaller t rfl
      refine ⟨rounds + 1, by omega, ?_⟩
      rw [hsame]
      exact .again hbody hloops

variable {α : Type} (I : Interpretation α)

/-- The answer of a run and the stacks that it leaves, without its reductions. -/
def Run.outcome (run : Run α β) : Except Fault β × Calculator α := (run.answer, run.calculator)

theorem Run.outcome_of_ok {γ : Type} {run : Run α β} {next : β → Calculator α → Run α γ} {b : β}
    (h : run.answer = .ok b) :
    (run.andThen next).outcome = (next b run.calculator).outcome := by
  rw [outcome, (Run.andThen_of_ok h).1, (Run.andThen_of_ok h).2, outcome]

theorem Run.outcome_of_error {γ : Type} {run : Run α β} {next : β → Calculator α → Run α γ}
    {fault : Fault} (h : run.answer = .error fault) :
    (run.andThen next).outcome = (.error fault, run.calculator) := by
  rw [outcome, (Run.andThen_of_error h).1, (Run.andThen_of_error h).2]

namespace Calculator

def feedRound (s : Lexer × Calculator α) :
    (Lexer × Calculator α) ⊕ (Except Fault Unit × Calculator α) :=
  match s.1.pull with
  | (.error fault, _) => .inr (.error fault, s.2)
  | (.ok none, _) => .inr (.ok (), s.2)
  | (.ok (some token), next) =>
    match (accept I token s.2).answer with
    | .error fault => .inr (.error fault, (accept I token s.2).calculator)
    | .ok _ => .inl (next, (accept I token s.2).calculator)

def reduceRound (c : Calculator α) : Calculator α ⊕ (Except Fault Unit × Calculator α) :=
  match (reduceTop I c).answer with
  | .error fault => .inr (.error fault, (reduceTop I c).calculator)
  | .ok true => .inr (.ok (), (reduceTop I c).calculator)
  | .ok false => .inl (reduceTop I c).calculator

/-- Each round leaves the lexer with less to do. -/
theorem remaining_feedRound {s t : Lexer × Calculator α} (h : feedRound I s = .inl t) :
    t.1.remaining < s.1.remaining := by
  unfold feedRound at h
  split at h
  · contradiction
  · contradiction
  · rename_i token next hpull
    split at h
    · contradiction
    · obtain rfl := Sum.inl.inj h
      exact Lexer.remaining_pull hpull

theorem acceptScan_outcome (s : Lexer × Calculator α) :
    (acceptScan I s.1.scan s.2).outcome =
      (feedRound I s).elim (fun t => (acceptScan I t.1.scan t.2).outcome) id := by
  unfold feedRound
  split
  · rename_i hpull
    rw [Lexer.scan_of_fault hpull]
    rfl
  · rename_i hpull
    rw [Lexer.scan_of_end hpull]
    rfl
  · rename_i token next hpull
    rw [Lexer.scan_of_token hpull, acceptScan_push]
    split
    · rename_i haccept
      exact Run.outcome_of_error haccept
    · rename_i haccept
      exact Run.outcome_of_ok haccept

/-- The tokens of a text are accepted in no more rounds than it has characters. -/
theorem acceptText_loops (text : List Char) (c : Calculator α) :
    ∃ rounds ≤ text.length,
      Loops (feedRound I) rounds (.ofText text, c) (acceptText I text c).outcome := by
  have hsize : (Lexer.ofText text).remaining = text.length := by
    simp [Lexer.remaining, Lexer.ofText]
  rw [acceptText_eq_acceptScan, ← hsize]
  exact exists_loops (fun s => s.1.remaining) _ (fun _ _ h => remaining_feedRound I h)
    (acceptScan_outcome I) (.ofText text, c)

theorem length_reduceRound {c next : Calculator α} (h : reduceRound I c = .inl next) :
    next.operators.length < c.operators.length := by
  unfold reduceRound at h
  split at h
  · contradiction
  · contradiction
  · rename_i hreduce
    obtain rfl := Sum.inl.inj h
    have hne : c.operators ≠ [] := by
      intro hnil
      rw [reduceTop, hnil] at hreduce
      contradiction
    rw [reduceTop_operators, List.length_tail]
    exact Nat.sub_one_lt (mt List.length_eq_zero_iff.mp hne)

theorem closeGroup_outcome (c : Calculator α) :
    (closeGroup I c).outcome = (reduceRound I c).elim (fun c => (closeGroup I c).outcome) id := by
  rw [closeGroup_eq_reduceTop]
  unfold reduceRound
  split
  · rename_i hreduce
    exact Run.outcome_of_error hreduce
  · rename_i hreduce
    exact Run.outcome_of_ok hreduce
  · rename_i hreduce
    exact Run.outcome_of_ok hreduce

/-- A group is closed in no more rounds than there are operators. -/
theorem closeGroup_loops (c : Calculator α) :
    ∃ rounds ≤ c.operators.length, Loops (reduceRound I) rounds c (closeGroup I c).outcome :=
  exists_loops (fun c => c.operators.length) _ (fun _ _ h => length_reduceRound I h)
    (closeGroup_outcome I) c

/-- An evaluation that comes to its end: the loop over the tokens stops, and the loop over
the operators unless that was at a fault. -/
inductive Ends (text : List Char) (c : Calculator α) :
    Except Fault α → Calculator α → Prop where
  | fed {rounds : Nat} {fault : Fault} {last : Calculator α} (bound : rounds ≤ text.length)
      (feeding : Loops (feedRound I) rounds (.ofText text, c) (.error fault, last)) :
      Ends text c (.error fault) last
  | closed {rounds others : Nat} {fault : Fault} {fed last : Calculator α}
      (bound : rounds ≤ text.length)
      (feeding : Loops (feedRound I) rounds (.ofText text, c) (.ok (), fed))
      (bound' : others ≤ fed.operators.length)
      (closing : Loops (reduceRound I) others fed (.error fault, last)) :
      Ends text c (.error fault) last
  | value {rounds others : Nat} {fed last : Calculator α} (bound : rounds ≤ text.length)
      (feeding : Loops (feedRound I) rounds (.ofText text, c) (.ok (), fed))
      (bound' : others ≤ fed.operators.length)
      (closing : Loops (reduceRound I) others fed (.ok (), last)) :
      Ends text c last.takeValue.answer last.takeValue.calculator

/-- Every evaluation comes to its end, from any calculator. -/
theorem evaluate_ends (text : String) (c : Calculator α) :
    Ends I text.toList c (c.evaluate I text).answer (c.evaluate I text).calculator := by
  obtain ⟨rounds, bound, feeding⟩ := acceptText_loops I text.toList c
  unfold evaluate
  generalize acceptText I text.toList c = accepted at feeding ⊢
  cases haccept : accepted.answer with
  | error fault =>
    rw [(Run.andThen_of_error haccept).1, (Run.andThen_of_error haccept).2]
    rw [Run.outcome, haccept] at feeding
    exact .fed bound feeding
  | ok _ =>
    rw [(Run.andThen_of_ok haccept).1, (Run.andThen_of_ok haccept).2]
    rw [Run.outcome, haccept] at feeding
    obtain ⟨others, bound', closing⟩ := closeGroup_loops I accepted.calculator
    cases hclose : (closeGroup I accepted.calculator).answer with
    | error fault =>
      rw [(Run.andThen_of_error hclose).1, (Run.andThen_of_error hclose).2]
      rw [Run.outcome, hclose] at closing
      exact .closed bound feeding bound' closing
    | ok _ =>
      rw [(Run.andThen_of_ok hclose).1, (Run.andThen_of_ok hclose).2]
      rw [Run.outcome, hclose] at closing
      exact .value bound feeding bound' closing

end Calculator

end InfixCalculator
