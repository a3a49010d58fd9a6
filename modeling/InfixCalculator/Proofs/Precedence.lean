import InfixCalculator.Proofs.Grouping

/-!
Where the reference bracketing of a chain departs from convention: exactly when an
addition or subtraction comes somewhere before a power that a multiplication or
division follows at once.
-/
namespace InfixCalculator

/-- A sum, and somewhere later a power with a product or quotient right behind it. -/
def OvertakesSum (ops : List BinaryOperator) : Prop :=
  ∃ before sum between factor after,
    ops = before ++ sum :: (between ++ .pow :: factor :: after) ∧
      sum ∈ [BinaryOperator.add, .sub] ∧ factor ∈ [BinaryOperator.mul, .div]

/-- The last operator completes the pattern, or it was there before. -/
theorem overtakesSum_concat_iff {ops : List BinaryOperator} {op : BinaryOperator} :
    OvertakesSum (ops ++ [op]) ↔
      OvertakesSum ops ∨
        (∃ sum ∈ ops, sum.priority = 1) ∧ ops.getLast? = some .pow ∧ op.priority = 2 := by
  constructor
  · rintro ⟨before, sum, between, factor, after, h, hsum, hfactor⟩
    rcases after.eq_nil_or_concat with rfl | ⟨after, last, rfl⟩
    · have hcut : before ++ sum :: (between ++ [.pow, factor]) =
          (before ++ sum :: (between ++ [.pow])) ++ [factor] := by simp
      rw [hcut] at h
      obtain ⟨rfl, hop⟩ := List.append_inj' h rfl
      obtain rfl := List.cons.inj hop |>.1
      refine .inr ⟨⟨sum, by simp, priority_eq_one_iff.mpr hsum⟩, ?_,
        priority_eq_two_iff.mpr hfactor⟩
      rw [← List.cons_append, ← List.append_assoc, List.getLast?_concat]
    · have hcut : before ++ sum :: (between ++ .pow :: factor :: after.concat last) =
          (before ++ sum :: (between ++ .pow :: factor :: after)) ++ [last] := by simp
      rw [hcut] at h
      obtain ⟨rfl, -⟩ := List.append_inj' h rfl
      exact .inl ⟨before, sum, between, factor, after, rfl, hsum, hfactor⟩
  · rintro (⟨before, sum, between, factor, after, rfl, hsum, hfactor⟩ |
      ⟨⟨sum, hmem, hsum⟩, hlast, hop⟩)
    · exact ⟨before, sum, between, factor, after ++ [op], by simp, hsum, hfactor⟩
    · obtain ⟨init, rfl⟩ := List.getLast?_eq_some_iff.mp hlast
      have hinit : sum ∈ init := by
        rcases List.mem_append.mp hmem with hmem | hmem
        · exact hmem
        · rw [List.mem_singleton.mp hmem] at hsum
          simp [BinaryOperator.priority] at hsum
      obtain ⟨before, between, rfl⟩ := List.append_of_mem hinit
      exact ⟨before, sum, between, op, [], by simp, priority_eq_one_iff.mp hsum,
        priority_eq_two_iff.mp hop⟩

namespace Grouping

def root? : Grouping α → Option BinaryOperator
  | leaf _ => none
  | node op _ _ => some op

/-- An operator that is inserted at the root has the whole tree to its left. -/
theorem insert_eq_node {op : BinaryOperator} {x : α} {t u : Grouping α}
    (h : t.insert op x = node op u (leaf x)) : t = u := by
  cases t with
  | leaf y => exact (node.inj h).2.1
  | node p left right =>
    by_cases looser : p.priority < op.priority
    · rw [insert_of_lt looser] at h
      rw [(node.inj h).1] at looser
      exact absurd looser (Nat.lt_irrefl _)
    · rw [insert_of_not_lt looser] at h
      exact (node.inj h).2.1

/-- Trees stay different when the same operator is inserted in both. -/
theorem insert_injective {op : BinaryOperator} {x : α} {t u : Grouping α}
    (h : t.insert op x = u.insert op x) : t = u := by
  induction t generalizing u with
  | leaf y => exact (insert_eq_node h.symm).symm
  | node p left right _ ih =>
    by_cases looser : p.priority < op.priority
    · rw [insert_of_lt looser] at h
      cases u with
      | leaf z =>
        rw [(node.inj h).1] at looser
        exact absurd looser (Nat.lt_irrefl _)
      | node q left' right' =>
        by_cases looser' : q.priority < op.priority
        · rw [insert_of_lt looser'] at h
          obtain ⟨rfl, rfl, hright⟩ := node.inj h
          rw [ih hright]
        · rw [insert_of_not_lt looser'] at h
          rw [(node.inj h).1] at looser
          exact absurd looser (Nat.lt_irrefl _)
    · rw [insert_of_not_lt looser] at h
      exact (insert_eq_node h.symm).symm

/-- Trees that come out alike were alike, also if the operator was attached to one and
inserted in the other. -/
theorem eq_of_attach_eq_insert {op : BinaryOperator} {x : α} {t u : Grouping α}
    (h : t.attach op x = u.insert op x) : t = u := by
  unfold attach at h
  split at h
  · exact (insert_eq_node h.symm).symm
  · exact insert_injective h

/-- Attaching is not inserting just when a tighter operator waits over a looser
one. -/
theorem attach_eq_insert_iff {op : BinaryOperator} {x : α} {t : Grouping α} :
    t.attach op x = t.insert op x ↔
      ¬((∃ top ∈ t.waiting.head?, op.priority < top.priority) ∧
        ∃ root ∈ t.root?, root.priority < op.priority) := by
  have hhead : (∃ top ∈ t.waiting.head?, op.priority < top.priority) ↔
      t.waiting.head?.any (op.priority < ·.priority) := by
    simp [Option.any_eq_true]
  unfold attach
  rw [hhead]
  by_cases tighter : t.waiting.head?.any (op.priority < ·.priority)
  · rw [if_pos tighter]
    cases t with
    | leaf y => simp [root?]
    | node p left right =>
      by_cases looser : p.priority < op.priority
      · have hp : op ≠ p := by
          rintro rfl
          exact Nat.lt_irrefl _ looser
        simp [insert_of_lt looser, hp, tighter, root?, looser]
      · simp [insert_of_not_lt looser, root?, looser]
  · simp [tighter]

/-- An inserted operator is applied last unless the one before it is looser. -/
theorem root?_insert (op : BinaryOperator) (x : α) (t : Grouping α) :
    (t.insert op x).root? =
      some (t.root?.elim op fun root => if root.priority < op.priority then root else op) := by
  cases t with
  | leaf y => rfl
  | node p left right =>
    by_cases looser : p.priority < op.priority
    · simp [insert_of_lt looser, root?, looser]
    · simp [insert_of_not_lt looser, root?, looser]

end Grouping

theorem root?_conventional_eq_none {first : α} {links : List (Link α)}
    (h : (conventional first links).root? = none) : links = [] := by
  rcases links.eq_nil_or_concat with rfl | ⟨init, link, rfl⟩
  · rfl
  · rw [List.concat_eq_append, conventional_concat, Grouping.root?_insert] at h
    contradiction

/-- Convention applies a loosest operator last. -/
theorem root?_conventional (first : α) (links : List (Link α)) :
    ∀ root ∈ (conventional first links).root?,
      root ∈ links.map (·.1) ∧ ∀ op ∈ links.map (·.1), root.priority ≤ op.priority := by
  induction links using List.reverseRecOn with
  | nil => simp [Grouping.root?]
  | append_singleton init link ih =>
    intro root hroot
    rw [conventional_concat, Grouping.root?_insert] at hroot
    rw [List.map_append, List.map_singleton]
    cases hbefore : (conventional first init).root? with
    | none =>
      obtain rfl := root?_conventional_eq_none hbefore
      obtain rfl : link.1 = root := by simpa [Grouping.root?] using hroot
      simp
    | some p =>
      obtain ⟨hmem, hleast⟩ := ih p hbefore
      rw [hbefore] at hroot
      by_cases looser : p.priority < link.1.priority
      · obtain rfl : p = root := by simpa [looser] using hroot
        refine ⟨List.mem_append_left _ hmem, fun op hop => ?_⟩
        rcases List.mem_append.mp hop with hop | hop
        · exact hleast op hop
        · rw [List.mem_singleton.mp hop]
          exact Nat.le_of_lt looser
      · obtain rfl : link.1 = root := by simpa [looser] using hroot
        refine ⟨List.mem_append_right _ (by simp), fun op hop => ?_⟩
        rcases List.mem_append.mp hop with hop | hop
        · exact Nat.le_trans (Nat.not_lt.mp looser) (hleast op hop)
        · obtain rfl := List.mem_singleton.mp hop
          exact Nat.le_refl _

/-- With three priorities, a tighter last operator over a looser root is a power
over a sum. -/
theorem departs_iff (first : α) (links : List (Link α)) (op : BinaryOperator) :
    ((∃ top ∈ links.getLast?.map (·.1), op.priority < top.priority) ∧
        ∃ root ∈ (conventional first links).root?, root.priority < op.priority) ↔
      (∃ sum ∈ links.map (·.1), sum.priority = 1) ∧
        (links.map (·.1)).getLast? = some .pow ∧ op.priority = 2 := by
  rw [List.getLast?_map]
  constructor
  · rintro ⟨⟨top, htop, htighter⟩, root, hroot, hlooser⟩
    obtain ⟨hmem, -⟩ := root?_conventional first links root hroot
    have hpos := root.priority_pos
    have hthree := top.priority_le_three
    have hpow : top = .pow := priority_eq_three_iff.mp (by omega)
    rw [hpow] at htop
    exact ⟨⟨root, hmem, by omega⟩, htop, by omega⟩
  · rintro ⟨⟨sum, hmem, hsum⟩, hlast, hop⟩
    refine ⟨⟨.pow, hlast, by rw [hop]; decide⟩, ?_⟩
    cases hroot : (conventional first links).root? with
    | none =>
      obtain rfl := root?_conventional_eq_none hroot
      simp at hmem
    | some root =>
      have hleast := (root?_conventional first links root hroot).2 sum hmem
      exact ⟨root, rfl, by omega⟩

/-- The reference and convention part just where a sum is overtaken. -/
theorem reference_eq_conventional_iff (first : α) (links : List (Link α)) :
    reference first links = conventional first links ↔ ¬OvertakesSum (links.map (·.1)) := by
  induction links using List.reverseRecOn with
  | nil =>
    have hnone : ¬OvertakesSum [] := by
      rintro ⟨before, sum, between, factor, after, h, -⟩
      simp at h
    simpa using hnone
  | append_singleton init link ih =>
    rw [reference_concat, conventional_concat, List.map_append, List.map_singleton,
      overtakesSum_concat_iff]
    by_cases already : OvertakesSum (init.map (·.1))
    · have hdiffer := mt ih.mp (not_not.mpr already)
      exact iff_of_false (fun h => hdiffer (Grouping.eq_of_attach_eq_insert h))
        (not_not.mpr (.inl already))
    · have hsame := ih.mpr already
      rw [hsame, Grouping.attach_eq_insert_iff, ← hsame, head?_waiting_reference, hsame,
        or_iff_right already]
      exact not_congr (departs_iff first init link.1)

end InfixCalculator
