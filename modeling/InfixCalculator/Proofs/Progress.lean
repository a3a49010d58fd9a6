import InfixCalculator.Proofs.Rounds
import InfixCalculator.Proofs.Stalling

/-!
A lexer between calls, as long as nothing has gone wrong since it was last put back to the
start of its text. No run is left over and an operator is due just when it has been read and
not delivered, so that every token uses up a part of the text or the operator that is due.
-/
namespace InfixCalculator

inductive LexerCall where
  | pull
  | restart
  deriving DecidableEq, Repr

def LexerCall.perform (call : LexerCall) (l : Lexer) : Lexer :=
  match call with
  | .pull => l.pull.2
  | .restart => l.restart

namespace Lexer

/-- The lexer after some calls, whether they faulted or not. -/
def after (l : Lexer) : List LexerCall → Lexer
  | [] => l
  | call :: rest => (call.perform l).after rest

theorem after_concat (l : Lexer) (calls : List LexerCall) (call : LexerCall) :
    l.after (calls ++ [call]) = call.perform (l.after calls) := by
  induction calls generalizing l with
  | nil => rfl
  | cons first rest ih => exact ih (first.perform l)

/-- No pull since the last restart has faulted. -/
def Unfaulted (l : Lexer) (calls : List LexerCall) : Prop :=
  ∀ front back, calls = front ++ .pull :: back → .restart ∉ back →
    ∀ fault, (l.after front).pull.1 ≠ .error fault

/-- A restart makes good for all faults before it. -/
theorem unfaulted_restart (l : Lexer) (calls : List LexerCall) :
    l.Unfaulted (calls ++ [.restart]) := by
  intro front back hsplit hback
  cases back using List.reverseRecOn with
  | nil =>
    obtain ⟨-, hcall⟩ := List.append_inj' hsplit rfl
    contradiction
  | append_singleton back call =>
    rw [← List.cons_append, ← List.append_assoc] at hsplit
    obtain ⟨-, hcall⟩ := List.append_inj' hsplit rfl
    obtain rfl : .restart = call := List.singleton_inj.mp hcall
    exact absurd (by simp) hback

theorem unfaulted_pull_iff {l : Lexer} {calls : List LexerCall} :
    l.Unfaulted (calls ++ [.pull]) ↔
      l.Unfaulted calls ∧ ∀ fault, (l.after calls).pull.1 ≠ .error fault := by
  constructor
  · intro h
    refine ⟨fun front back hcalls hback => ?_, h calls [] rfl (by simp)⟩
    exact h front (back ++ [.pull]) (by simp [hcalls]) (by simpa using hback)
  · rintro ⟨hcalls, hpull⟩ front back hsplit hback
    cases back using List.reverseRecOn with
    | nil =>
      obtain ⟨rfl, -⟩ := List.append_inj' hsplit rfl
      exact hpull
    | append_singleton back call =>
      rw [← List.cons_append, ← List.append_assoc] at hsplit
      obtain ⟨rfl, -⟩ := List.append_inj' hsplit rfl
      exact hcalls front back rfl fun hmem => hback (by simp [hmem])

/-- Calls keep the lexer settled and the text as it is, faults or not. -/
theorem after_settled {l : Lexer} (h : l.Settled) (calls : List LexerCall) :
    (l.after calls).Settled ∧ (l.after calls).text = l.text := by
  induction calls using List.reverseRecOn with
  | nil => exact ⟨h, rfl⟩
  | append_singleton calls call ih =>
    obtain ⟨hsettled, htext⟩ := ih
    rw [after_concat]
    cases call with
    | pull =>
      have hpull := pull_pulls hsettled
      exact ⟨hpull.settled, hpull.text_eq.trans htext⟩
    | restart => exact ⟨settled_ofText _, htext⟩

/-- A lexer of this text that is not in the middle of a run. An operator is pending just
when it is due, and is the character read last. -/
structure Steady (text : List Char) (l : Lexer) : Prop where
  text : l.text = text
  buffer : l.buffer = []
  phase : l.phase ≠ .inRun
  due : l.phase = .operatorDue ↔ l.pending.isSome
  before : ∀ op, l.pending = some op → l.before.head? = some op.symbol

namespace Steady

variable {text : List Char} {l : Lexer}

theorem of_idle (htext : l.text = text) (hbuffer : l.buffer = []) (hphase : l.phase = .idle)
    (hpending : l.pending = none) : Steady text l := by
  refine ⟨htext, hbuffer, ?_, ?_, ?_⟩
  · simp [hphase]
  · simp [hphase, hpending]
  · simp [hpending]

theorem ofText (text : List Char) : Steady text (ofText text) := of_idle rfl rfl rfl rfl

theorem settled (h : Steady text l) : l.Settled :=
  ⟨h.buffer, fun hphase => Option.isSome_iff_exists.mp (h.due.mp hphase)⟩

theorem pending_of_idle (h : Steady text l) (hphase : l.phase = .idle) : l.pending = none := by
  cases hpending : l.pending with
  | none => rfl
  | some op =>
    have hdue := h.due.mpr (by simp [hpending])
    rw [hphase] at hdue
    contradiction

theorem pending_of_begins (h : Steady text l) {piece : List Char} (begins : l.Begins piece) :
    l.pending = none := by
  rcases begins with hphase | ⟨hphase, -⟩
  · exact absurd hphase h.phase
  · exact h.pending_of_idle hphase

/-- A pull without a fault goes on to such a state again. -/
theorem pulls (h : Steady text l) {delivered : Option Token} {next : Lexer}
    (hpulls : Pulls l (.ok delivered) next) : Steady text next := by
  have htext := hpulls.text_eq.trans h.text
  cases hpulls with
  | due => exact .of_idle htext rfl rfl rfl
  | finish phase => exact .of_idle htext rfl rfl (h.pending_of_idle phase)
  | operator phase => exact .of_idle htext rfl rfl (h.pending_of_idle phase)
  | lastOperand begins => exact .of_idle htext rfl rfl (h.pending_of_begins begins)
  | operand => exact ⟨htext, rfl, nofun, by simp, by simp⟩

theorem length_eq (h : Steady text l) : l.position + l.rest.length = text.length := by
  rw [← h.text, Lexer.text, List.length_append, List.length_reverse, position]

theorem remaining_eq (h : Steady text l) :
    l.remaining = text.length - l.position + if l.pending.isSome then 1 else 0 := by
  have hlength := h.length_eq
  rw [remaining, h.buffer]
  cases l.pending <;> simp <;> omega

/-- An operator that is due is the character just read. -/
theorem symbol_before (h : Steady text l) {op : Operator} (hpending : l.pending = some op) :
    0 < l.position ∧ text[l.position - 1]? = some op.symbol := by
  obtain ⟨before, hbefore⟩ := List.head?_eq_some_iff.mp (h.before op hpending)
  rw [← h.text, Lexer.text, position, hbefore]
  simp

/-- What is left is never more than the text, since a pending operator has been read. -/
theorem remaining_le (h : Steady text l) : l.remaining ≤ text.length := by
  have hlength := h.length_eq
  rw [h.remaining_eq]
  split
  · rename_i hpending
    obtain ⟨op, hop⟩ := Option.isSome_iff_exists.mp hpending
    obtain ⟨hposition, -⟩ := h.symbol_before hop
    omega
  · omega

end Steady

/-- The lexer stays steady through any pulls and restarts, until it faults. -/
theorem after_steady {text : List Char} {calls : List LexerCall}
    (h : (ofText text).Unfaulted calls) : Steady text ((ofText text).after calls) := by
  -- On the last call: a restart makes good whatever went wrong before it, and only the calls
  -- before a pull have to be without faults too.
  induction calls using List.reverseRecOn with
  | nil => exact .ofText text
  | append_singleton calls call ih =>
    rw [after_concat]
    cases call with
    | restart =>
      obtain ⟨-, htext⟩ := after_settled (settled_ofText text) calls
      rw [LexerCall.perform, Lexer.restart, htext]
      exact .ofText text
    | pull =>
      obtain ⟨hcalls, hpull⟩ := unfaulted_pull_iff.mp h
      have hsteady := ih hcalls
      have hpulls := pull_pulls hsteady.settled
      cases hdelivered : ((ofText text).after calls).pull.1 with
      | error fault => exact absurd hdelivered (hpull fault)
      | ok delivered =>
        rw [hdelivered] at hpulls
        exact hsteady.pulls hpulls

/-- Tokens come to an end: each takes something away from what is left. -/
theorem exists_last_token (l : Lexer) :
    ∃ k ≤ l.remaining, (∀ j < k, ∃ token, l.delivery j = .ok (some token)) ∧
      ∀ token, l.delivery k ≠ .ok (some token) := by
  -- On what is left. No invariant is needed: a pull that delivers a token takes something away
  -- from every lexer.
  induction hsize : l.remaining using Nat.strongRecOn generalizing l with
  | ind n ih =>
    by_cases hpull : ∃ token, l.delivery 0 = .ok (some token)
    · obtain ⟨token, htoken⟩ := hpull
      have hnext : l.pull = (.ok (some token), l.pull.2) := Prod.ext htoken rfl
      have hless := remaining_pull hnext
      rw [hsize] at hless
      obtain ⟨k, hk, htokens, hlast⟩ := ih _ hless l.pull.2 rfl
      refine ⟨k + 1, by omega, fun j hj => ?_, hlast⟩
      cases j with
      | zero => exact ⟨token, htoken⟩
      | succ j => exact htokens j (by omega)
    · exact ⟨0, Nat.zero_le n, nofun, fun token htoken => hpull ⟨token, htoken⟩⟩

end Lexer

/-- After any pulls and restarts with no fault since the last restart: the buffer is empty
and no run is left over, the position is one in the text, an operator is pending just when
it is due, and then it stands directly before the position. Every token that is pulled
makes what is left smaller, which is the text behind the position and a pending operator,
so that no more than that many come before the end or a fault. And every evaluation of
the text, on whatever stacks, comes to its end: it accepts no more tokens than the text has
characters, and no loop over the operators goes round more often than there are operators. -/
theorem lexer_progresses (text : String) :
    (∀ calls : List LexerCall, (Lexer.ofText text.toList).Unfaulted calls →
      let l := (Lexer.ofText text.toList).after calls
      let left (m : Lexer) : Nat := text.length - m.position + if m.pending.isSome then 1 else 0
      l.text = text.toList ∧ l.buffer = [] ∧ l.position ≤ text.length ∧ l.phase ≠ .inRun ∧
      (l.phase = .operatorDue ↔ l.pending.isSome) ∧
      (∀ op, l.pending = some op →
        0 < l.position ∧ text.toList[l.position - 1]? = some op.symbol) ∧
      (∀ token next, l.pull = (.ok (some token), next) → left next < left l) ∧
      left l ≤ text.length ∧
      ∃ k ≤ left l, (∀ j < k, ∃ token, l.delivery j = .ok (some token)) ∧
        ∀ token, l.delivery k ≠ .ok (some token)) ∧
    ∀ (power : Float → Float → Float) (n : Notation) (c : Calculator n.Result),
      let I := n.interpretation power
      Calculator.Ends I text.toList c (c.evaluate I text).answer
        (c.evaluate I text).calculator ∧
      ∃ rounds ≤ c.operators.length, Loops (Calculator.reduceRound I) rounds c
        (c.closeGroup I).outcome := by
  refine ⟨fun calls hcalls => ?_, fun power n c => ⟨?_, ?_⟩⟩
  · intro l left
    have hsteady : Lexer.Steady text.toList l := Lexer.after_steady hcalls
    have hlength : text.toList.length = text.length := String.length_toList
    have hremaining (m : Lexer) (hm : Lexer.Steady text.toList m) : m.remaining = left m := by
      rw [hm.remaining_eq, hlength]
    have hposition := hsteady.length_eq
    refine ⟨hsteady.text, hsteady.buffer, by omega, hsteady.phase, hsteady.due,
      fun op => hsteady.symbol_before, fun token next hpull => ?_, ?_, ?_⟩
    · have hnext : Lexer.Steady text.toList next := by
        have hpulls := Lexer.pull_pulls hsteady.settled
        rw [hpull] at hpulls
        exact hsteady.pulls hpulls
      rw [← hremaining l hsteady, ← hremaining next hnext]
      exact Lexer.remaining_pull hpull
    · rw [← hremaining l hsteady, ← hlength]
      exact hsteady.remaining_le
    · rw [← hremaining l hsteady]
      exact l.exists_last_token
  · exact Calculator.evaluate_ends (n.interpretation power) text c
  · exact Calculator.closeGroup_loops (n.interpretation power) c

/-- After a fault and a restart, the number is pulled and the operator behind it is pending,
which the next pull delivers. -/
theorem lexer_progresses_restarted :
    let calls : List LexerCall := [.pull, .pull, .pull, .restart, .pull]
    let l := (Lexer.ofText "2+x".toList).after calls
    let next := l.pull.2
    (Lexer.ofText "2+x".toList).Unfaulted calls ∧
    (l.pending = some (.binary .add) ∧
      "2+x".toList[l.position - 1]? = some (Operator.binary .add).symbol) ∧
    l.pull = (.ok (some (.operator (.binary .add))), next) ∧
    ("2+x".length - next.position + if next.pending.isSome then 1 else 0) <
      "2+x".length - l.position + if l.pending.isSome then 1 else 0 := by
  intro calls l next
  let earlier : List LexerCall := [.pull, .pull, .pull] ++ [.restart]
  have hearlier : (Lexer.ofText "2+x".toList).Unfaulted earlier := Lexer.unfaulted_restart _ _
  have hpulled : ((Lexer.ofText "2+x".toList).after earlier).pull.1 =
      .ok (some (.operand (Numeral.value ⟨2, 0⟩))) := rfl
  have hcalls : (Lexer.ofText "2+x".toList).Unfaulted (earlier ++ [.pull]) := by
    refine Lexer.unfaulted_pull_iff.mpr ⟨hearlier, fun fault => ?_⟩
    rw [hpulled]
    exact nofun
  have hpending : l.pending = some (.binary .add) := rfl
  have hpull : l.pull = (.ok (some (.operator (.binary .add))), next) := rfl
  obtain ⟨-, -, -, -, -, hbefore, hless, -⟩ := (lexer_progresses "2+x").1 calls hcalls
  exact ⟨hcalls, ⟨hpending, (hbefore _ hpending).2⟩, hpull, hless _ next hpull⟩

end InfixCalculator
