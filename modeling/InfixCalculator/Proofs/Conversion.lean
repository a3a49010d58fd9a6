import InfixCalculator.Proofs.Nest

/-!
What the calculator does with a nest. Within a group it keeps the operators that
still wait, looser ones below tighter ones, and emits a program as it goes; the
operands on its stack are those of that program. Emitted and waiting operators
together spell the reference bracketing.
-/
namespace InfixCalculator

/-- What has been emitted, and the operators that wait, the last one first. -/
structure Conversion where
  emitted : Program
  pending : List BinaryOperator
  deriving DecidableEq, Repr

namespace Conversion

def closed (c : Conversion) : Program := c.emitted ++ c.pending.map .apply

/-- An operator arrives: it waits too if it is tighter than the last one that
waits, replaces it if they are alike, and outlasts the whole group otherwise. -/
def arrive (op : BinaryOperator) : List BinaryOperator → Conversion
  | [] => ⟨[], [op]⟩
  | top :: below =>
    if top.priority < op.priority then ⟨[], op :: top :: below⟩
    else if op.priority < top.priority then ⟨(top :: below).map .apply, [op]⟩
    else ⟨[.apply top], op :: below⟩

theorem arrive_tighter {op : BinaryOperator} {pending : List BinaryOperator}
    (h : ∀ p ∈ pending, p.priority < op.priority) : arrive op pending = ⟨[], op :: pending⟩ := by
  cases pending with
  | nil => rfl
  | cons top below => simp [arrive, h top (by simp)]

theorem arrive_alike {op top : BinaryOperator} (h : top.priority = op.priority)
    (below : List BinaryOperator) :
    arrive op (top :: below) = ⟨[.apply top], op :: below⟩ := by
  simp [arrive, h]

theorem arrive_looser {op top : BinaryOperator} (h : op.priority < top.priority)
    (below : List BinaryOperator) :
    arrive op (top :: below) = ⟨(top :: below).map .apply, [op]⟩ := by
  simp [arrive, h, Nat.lt_asymm h]

/-- Each operator is tighter than those below it. -/
def Tightening (pending : List BinaryOperator) : Prop :=
  pending.Pairwise fun a b => b.priority < a.priority

theorem Tightening.below_lt {top : BinaryOperator} {below : List BinaryOperator}
    (h : Tightening (top :: below)) : ∀ p ∈ below, p.priority < top.priority :=
  (List.pairwise_cons.mp h).1

theorem Tightening.all_lt {top op : BinaryOperator} {below : List BinaryOperator}
    (h : Tightening (top :: below)) (tighter : top.priority < op.priority) :
    ∀ p ∈ top :: below, p.priority < op.priority := by
  intro p hp
  rcases List.mem_cons.mp hp with rfl | hp
  · exact tighter
  · exact Nat.lt_trans (h.below_lt p hp) tighter

/-- Whatever arrives, looser operators stay below tighter ones. -/
theorem Tightening.arrive {pending : List BinaryOperator} (h : Tightening pending)
    (op : BinaryOperator) : Tightening (arrive op pending).pending := by
  cases pending with
  | nil => exact List.pairwise_singleton _ op
  | cons top below =>
    rcases Nat.lt_trichotomy top.priority op.priority with tighter | alike | looser
    · rw [arrive_tighter (h.all_lt tighter)]
      exact List.pairwise_cons.mpr ⟨h.all_lt tighter, h⟩
    · rw [arrive_alike alike]
      exact List.pairwise_cons.mpr ⟨alike ▸ h.below_lt, (List.pairwise_cons.mp h).2⟩
    · rw [arrive_looser looser]
      exact List.pairwise_singleton _ op

def ofLinks : List (Link Program) → List BinaryOperator → Conversion
  | [], pending => ⟨[], pending⟩
  | (op, segment) :: rest, pending =>
    let first := arrive op pending
    let more := ofLinks rest first.pending
    ⟨first.emitted ++ segment ++ more.emitted, more.pending⟩

end Conversion

def Nest.convert (n : Nest) (pending : List BinaryOperator) : Conversion :=
  let more := Conversion.ofLinks n.segments.2 pending
  ⟨n.segments.1 ++ more.emitted, more.pending⟩

namespace Grouping

/-- What the calculator has emitted when the lowest operators still wait. -/
def emitted : Grouping Program → Program
  | leaf p => p
  | node _ left right => left.join .programs ++ right.emitted

/-- The program of a bracketing is what has been emitted and what still waits. -/
theorem join_programs (t : Grouping Program) :
    t.join .programs = t.emitted ++ t.waiting.map .apply := by
  induction t with
  | leaf p => simp [join, emitted, waiting]
  | node op left right _ ih => simp [join, emitted, waiting, ih]

theorem waiting_insert_tighter {t : Grouping Program} {op : BinaryOperator}
    (h : ∀ p ∈ t.waiting, p.priority < op.priority) (segment : Program) :
    (t.insert op segment).waiting = op :: t.waiting ∧
      (t.insert op segment).emitted = t.emitted ++ segment := by
  induction t with
  | leaf p => exact ⟨rfl, rfl⟩
  | node p left right _ ih =>
    have hp : p.priority < op.priority := h p (by simp [waiting])
    obtain ⟨hwaiting, hemitted⟩ := ih fun q hq => h q (by simp [waiting, hq])
    simp [insert, hp, waiting, emitted, hwaiting, hemitted]

theorem waiting_insert_alike {t : Grouping Program} {op top : BinaryOperator}
    {below : List BinaryOperator} (h : t.waiting = top :: below)
    (alike : top.priority = op.priority) (looser : ∀ p ∈ below, p.priority < op.priority)
    (segment : Program) :
    (t.insert op segment).waiting = op :: below ∧
      (t.insert op segment).emitted = t.emitted ++ .apply top :: segment := by
  induction t generalizing below with
  | leaf p => simp [waiting] at h
  | node p left right _ ih =>
    rw [waiting] at h
    cases hright : right.waiting with
    | nil =>
      rw [hright] at h
      obtain ⟨rfl, rfl⟩ : p = top ∧ below = [] := by simpa [eq_comm] using h
      have hjoin := right.join_programs
      simp only [hright, List.map_nil, List.append_nil] at hjoin
      simp [insert, alike, waiting, emitted, join, hjoin]
    | cons last more =>
      rw [hright] at h
      obtain ⟨rfl, rfl⟩ : last = top ∧ more ++ [p] = below := by simpa using h
      have hp : p.priority < op.priority := looser p (by simp)
      obtain ⟨hwaiting, hemitted⟩ := ih hright fun q hq => looser q (by simp [hq])
      simp [insert, hp, waiting, emitted, hwaiting, hemitted]

/-- One more operator and segment changes the conversion as the arrival does. -/
theorem attach_arrive {t : Grouping Program} (h : Conversion.Tightening t.waiting)
    (op : BinaryOperator) (segment : Program) :
    (t.attach op segment).waiting = (Conversion.arrive op t.waiting).pending ∧
      (t.attach op segment).emitted =
        t.emitted ++ (Conversion.arrive op t.waiting).emitted ++ segment := by
  cases hwaiting : t.waiting with
  | nil =>
    have htighter : ∀ p ∈ t.waiting, p.priority < op.priority := by simp [hwaiting]
    have hinsert := waiting_insert_tighter htighter segment
    simpa [attach, Conversion.arrive, hwaiting] using hinsert
  | cons top below =>
    rw [hwaiting] at h
    rcases Nat.lt_trichotomy top.priority op.priority with tighter | alike | looser
    · have hinsert := waiting_insert_tighter (hwaiting ▸ h.all_lt tighter) segment
      rw [Conversion.arrive_tighter (h.all_lt tighter)]
      simpa [attach, hwaiting, Nat.lt_asymm tighter] using hinsert
    · have hinsert := waiting_insert_alike hwaiting alike (alike ▸ h.below_lt) segment
      rw [Conversion.arrive_alike alike]
      simpa [attach, hwaiting, alike] using hinsert
    · have hjoin := t.join_programs
      rw [hwaiting] at hjoin
      rw [Conversion.arrive_looser looser]
      simp [attach, hwaiting, looser, waiting, emitted, hjoin]

/-- Whatever links follow, what is emitted and what waits are those of the
bracketing that attaches them in turn. -/
theorem ofLinks_waiting {t : Grouping Program} (h : Conversion.Tightening t.waiting)
    (links : List (Link Program)) :
    let whole := links.foldl (fun t link => t.attach link.1 link.2) t
    t.emitted ++ (Conversion.ofLinks links t.waiting).emitted = whole.emitted ∧
      (Conversion.ofLinks links t.waiting).pending = whole.waiting := by
  induction links generalizing t with
  | nil => simp [Conversion.ofLinks]
  | cons link rest ih =>
    obtain ⟨op, segment⟩ := link
    obtain ⟨hwaiting, hemitted⟩ := attach_arrive h op segment
    have hrest := ih (hwaiting ▸ h.arrive op)
    rw [hwaiting, hemitted] at hrest
    simpa [Conversion.ofLinks] using hrest

end Grouping

/-- The conversion of a whole group spells its reference bracketing. -/
theorem Nest.closed_convert (n : Nest) : (n.convert []).closed = n.program := by
  have hlinks := Grouping.ofLinks_waiting (t := .leaf n.segments.1) List.Pairwise.nil
    n.segments.2
  rw [← reference_eq_foldl] at hlinks
  obtain ⟨hemitted, hpending⟩ := hlinks
  rw [Nest.program, Grouping.join_programs, ← hemitted, ← hpending]
  rfl

end InfixCalculator
