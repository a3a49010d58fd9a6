import InfixCalculator.Expression
import InfixCalculator.Proofs.Priority
import Mathlib.Data.List.Induction

/-!
Ways to bracket a chain of operands with operators between them. A rule picks the
operator that is applied last and splits the chain there. Convention takes the
last operator of lowest priority in the whole chain; the reference takes it in the
last run of operators whose priorities never decrease.
-/
namespace InfixCalculator

abbrev Link (α : Type) := BinaryOperator × α

structure Split (α : Type) where
  before : List (Link α)
  op : BinaryOperator
  right : α
  after : List (Link α)

namespace Split

def whole (s : Split α) : List (Link α) := s.before ++ (s.op, s.right) :: s.after

def push (link : Link α) (s : Split α) : Split α := { s with before := link :: s.before }

def extend (s : Split α) (link : Link α) : Split α := { s with after := s.after ++ [link] }

@[simp] theorem whole_push (link : Link α) (s : Split α) :
    (s.push link).whole = link :: s.whole := rfl

theorem length_before_lt (s : Split α) : s.before.length < s.whole.length := by
  simp [whole]
theorem length_after_lt (s : Split α) : s.after.length < s.whole.length := by
  simp only [whole, List.length_append, List.length_cons]
  omega

end Split

/-- The cut at the last operator of lowest priority. -/
def lastLowest : List (Link α) → Option (Split α)
  | [] => none
  | link :: rest =>
    match lastLowest rest with
    | none => some ⟨[], link.1, link.2, rest⟩
    | some s =>
      if link.1.priority < s.op.priority then some ⟨[], link.1, link.2, rest⟩
      else some (s.push link)

def Rising (links : List (Link α)) : Prop :=
  links.Pairwise fun a b => a.1.priority ≤ b.1.priority

instance (links : List (Link α)) : Decidable (Rising links) :=
  inferInstanceAs (Decidable (links.Pairwise _))

/-- The cut at the last operator of lowest priority in the last maximal run of
operators whose priorities never decrease. -/
def lastLowestInRun : List (Link α) → Option (Split α)
  | [] => none
  | link :: rest =>
    if Rising (link :: rest) then lastLowest (link :: rest)
    else (lastLowestInRun rest).map (·.push link)

/-- The cut at the last operator of lowest priority loses no link. -/
theorem whole_lastLowest {links : List (Link α)} {s : Split α}
    (h : lastLowest links = some s) : s.whole = links := by
  induction links generalizing s with
  | nil => simp [lastLowest] at h
  | cons link rest ih =>
    unfold lastLowest at h
    split at h
    · simp only [Option.some.injEq] at h
      subst h
      rfl
    · rename_i t found
      split at h <;> simp only [Option.some.injEq] at h <;> subst h
      · rfl
      · rw [Split.whole_push, ih found]

theorem whole_lastLowestInRun {links : List (Link α)} {s : Split α}
    (h : lastLowestInRun links = some s) : s.whole = links := by
  induction links generalizing s with
  | nil => simp [lastLowestInRun] at h
  | cons link rest ih =>
    unfold lastLowestInRun at h
    split at h
    · exact whole_lastLowest h
    · obtain ⟨t, found, rfl⟩ := Option.map_eq_some_iff.mp h
      rw [Split.whole_push, ih found]

/-- A rule for where to cut a chain. -/
structure SplitRule (α : Type) where
  split : List (Link α) → Option (Split α)
  whole : ∀ {links s}, split links = some s → s.whole = links

def SplitRule.conventional : SplitRule α := ⟨lastLowest, whole_lastLowest⟩
def SplitRule.lastRun : SplitRule α := ⟨lastLowestInRun, whole_lastLowestInRun⟩

inductive Grouping (α : Type) where
  | leaf (x : α)
  | node (op : BinaryOperator) (left right : Grouping α)
  deriving DecidableEq, Repr

/-- The chain cut by the rule, and cut again on both sides until single operands
are left. -/
def SplitRule.group (rule : SplitRule α) (first : α) (links : List (Link α)) : Grouping α :=
  match _found : rule.split links with
  | none => .leaf first
  | some s => .node s.op (rule.group first s.before) (rule.group s.right s.after)
termination_by links.length
decreasing_by
  · have := s.length_before_lt
    rwa [rule.whole _found] at this
  · have := s.length_after_lt
    rwa [rule.whole _found] at this

/-- Tight operators first, operators of one priority from left to right. -/
def conventional (first : α) (links : List (Link α)) : Grouping α :=
  SplitRule.conventional.group first links

/-- The bracketing that the calculator is measured against. -/
def reference (first : α) (links : List (Link α)) : Grouping α :=
  SplitRule.lastRun.group first links

theorem SplitRule.group_of_split {rule : SplitRule α} {links : List (Link α)} {s : Split α}
    (h : rule.split links = some s) (first : α) :
    rule.group first links =
      .node s.op (rule.group first s.before) (rule.group s.right s.after) := by
  rw [SplitRule.group]
  split <;> simp_all

theorem SplitRule.group_of_none {rule : SplitRule α} {links : List (Link α)}
    (h : rule.split links = none) (first : α) : rule.group first links = .leaf first := by
  rw [SplitRule.group]
  split <;> simp_all

@[simp] theorem SplitRule.group_nil (rule : SplitRule α) (first : α) :
    rule.group first [] = .leaf first := by
  cases found : rule.split [] with
  | none => exact rule.group_of_none found first
  | some s => simpa [Split.whole] using rule.whole found

@[simp] theorem conventional_nil (first : α) : conventional first [] = .leaf first :=
  SplitRule.group_nil _ first
@[simp] theorem reference_nil (first : α) : reference first [] = .leaf first :=
  SplitRule.group_nil _ first

/-- The cut of a longer chain, from the cut of the chain without its last link. -/
def Split.concat (links : List (Link α)) (link : Link α) : Option (Split α) → Split α
  | none => ⟨links, link.1, link.2, []⟩
  | some s =>
    if s.op.priority < link.1.priority then s.extend link else ⟨links, link.1, link.2, []⟩

/-- A chain is cut at its last link unless a looser operator stands before it. -/
theorem lastLowest_concat (links : List (Link α)) (link : Link α) :
    lastLowest (links ++ [link]) = some (.concat links link (lastLowest links)) := by
  induction links with
  | nil => rfl
  | cons first rest ih =>
    simp only [List.cons_append, lastLowest, ih]
    cases found : lastLowest rest with
    | none => grind [Split.concat, Split.push, Split.extend]
    | some s => grind [Split.concat, Split.push, Split.extend]

theorem rising_concat_iff {links : List (Link α)} {link : Link α} :
    Rising (links ++ [link]) ↔
      Rising links ∧ ∀ b ∈ links, b.1.priority ≤ link.1.priority := by
  rw [Rising, List.pairwise_append]
  simp [Rising]

/-- To go on rising it is enough not to fall below the last link. -/
theorem Rising.concat {links : List (Link α)} {link : Link α} (h : Rising links)
    (last : ∀ b ∈ links.getLast?, b.1.priority ≤ link.1.priority) :
    Rising (links ++ [link]) := by
  refine rising_concat_iff.mpr ⟨h, ?_⟩
  intro a ha
  obtain ⟨b, hb⟩ : ∃ b, links.getLast? = some b :=
    ⟨_, List.getLast?_eq_some_getLast (List.ne_nil_of_mem ha)⟩
  obtain ⟨init, rfl⟩ := List.getLast?_eq_some_iff.mp hb
  have hlast : b.1.priority ≤ link.1.priority := last b (by simp)
  rcases List.mem_append.mp ha with ha | ha
  · exact Nat.le_trans ((rising_concat_iff.mp h).2 a ha) hlast
  · rwa [List.mem_singleton.mp ha]

/-- The last run goes on through an operator that is no looser than the one
before it. -/
theorem lastLowestInRun_concat {links : List (Link α)} {link : Link α}
    (last : ∀ b ∈ links.getLast?, b.1.priority ≤ link.1.priority) :
    lastLowestInRun (links ++ [link]) =
      some (.concat links link (lastLowestInRun links)) := by
  induction links with
  | nil => rfl
  | cons first rest ih =>
    have hrest : ∀ b ∈ rest.getLast?, b.1.priority ≤ link.1.priority := by
      intro b hb
      exact last b (by simp_all [List.getLast?_cons])
    by_cases rising : Rising (first :: rest)
    · have longer : Rising (first :: (rest ++ [link])) := rising.concat last
      simp only [List.cons_append, lastLowestInRun, if_pos rising, if_pos longer]
      exact lastLowest_concat (first :: rest) link
    · have longer : ¬Rising (first :: (rest ++ [link])) := fun h =>
        rising (rising_concat_iff.mp h).1
      simp only [List.cons_append, lastLowestInRun, if_neg rising, if_neg longer, ih hrest]
      cases found : lastLowestInRun rest with
      | none => rfl
      | some s => grind [Split.concat, Split.push, Split.extend]

/-- A looser operator than the one before it is a run of its own. -/
theorem lastLowestInRun_falling {links : List (Link α)} {link : Link α}
    (last : ∀ b ∈ links.getLast?, link.1.priority < b.1.priority) :
    lastLowestInRun (links ++ [link]) = some ⟨links, link.1, link.2, []⟩ := by
  induction links with
  | nil => rfl
  | cons first rest ih =>
    have falling : ¬Rising (first :: (rest ++ [link])) := by
      intro rising
      obtain ⟨b, hb⟩ : ∃ b, (first :: rest).getLast? = some b := by simp [List.getLast?_cons]
      have order := (rising_concat_iff.mp rising).2 b (List.mem_of_getLast? hb)
      exact absurd (last b hb) (Nat.not_lt.mpr order)
    have hrest : ∀ b ∈ rest.getLast?, link.1.priority < b.1.priority := by
      intro b hb
      exact last b (by simp_all [List.getLast?_cons])
    simp only [List.cons_append, lastLowestInRun, if_neg falling, ih hrest]
    rfl

namespace Grouping

/-- A new last operator goes down the right side past the looser ones. -/
def insert (op : BinaryOperator) (x : α) : Grouping α → Grouping α
  | leaf y => node op (leaf y) (leaf x)
  | node p left right =>
    if p.priority < op.priority then node p left (insert op x right)
    else node op (node p left right) (leaf x)

@[simp] theorem insert_leaf (op : BinaryOperator) (x y : α) :
    (leaf y).insert op x = node op (leaf y) (leaf x) := rfl

theorem insert_of_lt {p op : BinaryOperator} (h : p.priority < op.priority) (x : α)
    (left right : Grouping α) :
    (node p left right).insert op x = node p left (right.insert op x) := by
  rw [insert, if_pos h]

theorem insert_of_not_lt {p op : BinaryOperator} (h : ¬p.priority < op.priority) (x : α)
    (left right : Grouping α) :
    (node p left right).insert op x = node op (node p left right) (leaf x) := by
  rw [insert, if_neg h]

/-- The operators down the right side, the lowest one first. -/
def waiting : Grouping α → List BinaryOperator
  | leaf _ => []
  | node op _ right => right.waiting ++ [op]

/-- A new last operator goes on top if the lowest operator on the right side is
tighter, and otherwise to its place on that side. -/
def attach (op : BinaryOperator) (x : α) (t : Grouping α) : Grouping α :=
  if t.waiting.head?.any (op.priority < ·.priority) then node op t (leaf x) else t.insert op x

theorem head?_waiting_insert (op : BinaryOperator) (x : α) (t : Grouping α) :
    (t.insert op x).waiting.head? = some op := by
  induction t with
  | leaf y => rfl
  | node p left right _ ih =>
    unfold insert
    split
    · simp [waiting, ih]
    · rfl

end Grouping

/-- A rule that cuts a longer chain where it cut the shorter one, or before the
new link, inserts the new link. -/
theorem SplitRule.group_concat {rule : SplitRule α} {link : Link α}
    (Admits : List (Link α) → Prop)
    (cut : ∀ links, Admits links →
      rule.split (links ++ [link]) = some (.concat links link (rule.split links)))
    (after : ∀ links s, Admits links → rule.split links = some s → Admits s.after)
    (first : α) (links : List (Link α)) (h : Admits links) :
    rule.group first (links ++ [link]) = (rule.group first links).insert link.1 link.2 := by
  induction size : links.length using Nat.strongRecOn generalizing first links with
  | ind n ih =>
    have hcut := cut links h
    cases found : rule.split links with
    | none =>
      rw [found] at hcut
      rw [SplitRule.group_of_split hcut, SplitRule.group_of_none found]
      simp only [Split.concat, SplitRule.group_of_none found, SplitRule.group_nil]
      rfl
    | some s =>
      rw [found] at hcut
      have smaller : s.after.length < n := by
        rw [← size, ← rule.whole found]
        exact s.length_after_lt
      have hright := ih _ smaller s.right s.after (after links s h found) rfl
      rw [SplitRule.group_of_split hcut, SplitRule.group_of_split found]
      by_cases looser : s.op.priority < link.1.priority
      · simp [Split.concat, Split.extend, Grouping.insert, looser, hright]
      · simp [Split.concat, Grouping.insert, looser, SplitRule.group_of_split found]

theorem conventional_concat (first : α) (links : List (Link α)) (link : Link α) :
    conventional first (links ++ [link]) = (conventional first links).insert link.1 link.2 :=
  SplitRule.group_concat (fun _ => True) (fun links _ => lastLowest_concat links link)
    (fun _ _ _ _ => trivial) first links trivial

/-- One more link that does not loosen the run is inserted as by convention. -/
theorem reference_concat_of_le {links : List (Link α)} {link : Link α}
    (last : ∀ b ∈ links.getLast?, b.1.priority ≤ link.1.priority) (first : α) :
    reference first (links ++ [link]) = (reference first links).insert link.1 link.2 := by
  refine SplitRule.group_concat (fun links => ∀ b ∈ links.getLast?, b.1.priority ≤ link.1.priority)
    (fun links h => lastLowestInRun_concat h) ?_ first links last
  intro links s h found b hb
  apply h b
  rw [← whole_lastLowestInRun found]
  simp_all [Split.whole, List.getLast?_append, List.getLast?_cons]

/-- A link that is looser than the one before it takes all of the group for its left
operand. -/
theorem reference_concat_of_lt {links : List (Link α)} {link : Link α}
    (last : ∀ b ∈ links.getLast?, link.1.priority < b.1.priority) (first : α) :
    reference first (links ++ [link]) =
      .node link.1 (reference first links) (.leaf link.2) := by
  have hsplit : SplitRule.lastRun.split (links ++ [link]) = some ⟨links, link.1, link.2, []⟩ :=
    lastLowestInRun_falling last
  have hgroup := SplitRule.group_of_split hsplit first
  rwa [SplitRule.group_nil] at hgroup

theorem head?_waiting_reference (first : α) (links : List (Link α)) :
    (reference first links).waiting.head? = links.getLast?.map (·.1) := by
  rcases links.eq_nil_or_concat with rfl | ⟨init, link, rfl⟩
  · simp [Grouping.waiting]
  · rw [List.concat_eq_append, List.getLast?_concat]
    by_cases last : ∀ b ∈ init.getLast?, b.1.priority ≤ link.1.priority
    · rw [reference_concat_of_le last, Grouping.head?_waiting_insert]
      rfl
    · have tighter : ∀ b ∈ init.getLast?, link.1.priority < b.1.priority := by
        grind
      rw [reference_concat_of_lt tighter]
      rfl

/-- The reference bracketing of a longer chain attaches the new link. -/
theorem reference_concat (first : α) (links : List (Link α)) (link : Link α) :
    reference first (links ++ [link]) = (reference first links).attach link.1 link.2 := by
  unfold Grouping.attach
  rw [head?_waiting_reference, Option.any_map]
  split
  · rename_i tighter
    refine reference_concat_of_lt ?_ first
    intro b hb
    simp_all
  · rename_i looser
    refine reference_concat_of_le ?_ first
    intro b hb
    simp_all

example : reference 1 [(.sub, 2), (.pow, 3), (.mul, 4)] =
    .node .mul (.node .sub (.leaf 1) (.node .pow (.leaf 2) (.leaf 3))) (.leaf 4) := by cbv

/-- The reference bracketing can be built from left to right, one link after another. -/
theorem reference_eq_foldl (first : α) (links : List (Link α)) :
    reference first links = links.foldl (fun t link => t.attach link.1 link.2) (.leaf first) := by
  induction links using List.reverseRecOn with
  | nil => simp
  | append_singleton init link ih =>
    rw [reference_concat, ih, List.foldl_append]
    rfl

namespace Grouping

def map (f : α → β) : Grouping α → Grouping β
  | leaf x => leaf (f x)
  | node op left right => node op (left.map f) (right.map f)

def join (I : Interpretation α) : Grouping α → α
  | leaf x => x
  | node op left right => I.combine op (left.join I) (right.join I)

def leaves : Grouping α → List α
  | leaf x => [x]
  | node _ left right => left.leaves ++ right.leaves

theorem waiting_map (f : α → β) (t : Grouping α) : (t.map f).waiting = t.waiting := by
  induction t with
  | leaf x => rfl
  | node op left right _ ih => simp [map, waiting, ih]

theorem insert_map (f : α → β) (op : BinaryOperator) (x : α) (t : Grouping α) :
    (t.map f).insert op (f x) = (t.insert op x).map f := by
  induction t with
  | leaf y => rfl
  | node p left right _ ih =>
    by_cases looser : p.priority < op.priority <;> simp [map, insert, looser, ih]

theorem attach_map (f : α → β) (op : BinaryOperator) (x : α) (t : Grouping α) :
    (t.map f).attach op (f x) = (t.attach op x).map f := by
  unfold attach
  rw [waiting_map]
  split
  · rfl
  · exact insert_map f op x t

/-- A map that respects the operators may be taken before joining or after it. -/
theorem join_map {I : Interpretation α} {J : Interpretation β} {f : α → β}
    (h : ∀ op left right, f (I.combine op left right) = J.combine op (f left) (f right))
    (t : Grouping α) : (t.map f).join J = f (t.join I) := by
  induction t with
  | leaf x => rfl
  | node op left right left_ih right_ih => simp [map, join, left_ih, right_ih, h]

theorem leaves_insert (op : BinaryOperator) (x : α) (t : Grouping α) :
    (t.insert op x).leaves = t.leaves ++ [x] := by
  induction t with
  | leaf y => rfl
  | node p left right _ ih =>
    by_cases looser : p.priority < op.priority <;> simp [insert, leaves, looser, ih]

theorem leaves_attach (op : BinaryOperator) (x : α) (t : Grouping α) :
    (t.attach op x).leaves = t.leaves ++ [x] := by
  unfold attach
  split
  · rfl
  · exact leaves_insert op x t

end Grouping

/-- The brackets depend on the operators alone. -/
theorem reference_map (f : α → β) (first : α) (links : List (Link α)) :
    reference (f first) (links.map fun link => (link.1, f link.2)) =
      (reference first links).map f := by
  induction links using List.reverseRecOn with
  | nil => simp [Grouping.map]
  | append_singleton init link ih =>
    rw [List.map_append, List.map_singleton, reference_concat, reference_concat, ih]
    exact Grouping.attach_map f link.1 link.2 _

end InfixCalculator
