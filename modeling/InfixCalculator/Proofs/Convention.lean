import InfixCalculator.Proofs.Precedence
import InfixCalculator.Proofs.Readability
import InfixCalculator.Proofs.ReferenceTree

/-!
The tree that the calculator builds is the conventional one unless some group of
the expression lets a product overtake a sum. In that case the trees differ, and
so do both written forms, whatever else stands in the expression.
-/
namespace InfixCalculator

mutual
def Atom.groups : Atom → List Formula
  | .literal _ => []
  | .parens inner => inner :: inner.innerGroups
def Formula.innerGroups : Formula → List Formula
  | .single atom => atom.groups
  | .chain first _ rest => first.groups ++ rest.innerGroups
end

namespace Formula

/-- All groups of an expression, the expression as a whole among them. -/
def groups (f : Formula) : List Formula := f :: f.innerGroups

def operators : Formula → List BinaryOperator
  | single _ => []
  | chain _ op rest => op :: rest.operators

end Formula

/-- The operators of a group do not depend on how the groups inside it are bracketed. -/
theorem Formula.map_linksBy (bracket : Bracketing) (f : Formula) :
    (f.linksBy bracket).2.map (·.1) = f.operators := by
  cases f with
  | single atom => rfl
  | chain first op rest =>
    have hrest := rest.map_linksBy bracket
    simpa [Formula.linksBy, Formula.operators] using hrest

/-- A bracketing that keeps the operands and their order. -/
def Bracketing.Faithful (bracket : Bracketing) : Prop :=
  ∀ first links, (bracket first links).leaves = first :: links.map (·.2)

/-- The reference bracketing keeps each operand in its place. -/
theorem reference_faithful : Bracketing.Faithful reference := by
  intro first links
  induction links using List.reverseRecOn with
  | nil => simp [Grouping.leaves]
  | append_singleton init link ih => rw [reference_concat, Grouping.leaves_attach, ih]; simp

theorem conventional_faithful : Bracketing.Faithful conventional := by
  intro first links
  induction links using List.reverseRecOn with
  | nil => simp [Grouping.leaves]
  | append_singleton init link ih => rw [conventional_concat, Grouping.leaves_insert, ih]; simp

mutual
def Atom.literals : Atom → List Float
  | .literal x => [x]
  | .parens inner => inner.atomLiterals.flatten
def Formula.atomLiterals : Formula → List (List Float)
  | .single atom => [atom.literals]
  | .chain first _ rest => first.literals :: rest.atomLiterals
end

theorem Grouping.literals_join (t : Grouping Expression) :
    (t.join .trees).literals = (t.leaves.map Expression.literals).flatten := by
  induction t with
  | leaf e => simp [join, leaves]
  | node op left right left_ih right_ih =>
    change (left.join .trees).literals ++ (right.join .trees).literals = _
    rw [left_ih, right_ih, leaves, List.map_append, List.flatten_append]

mutual
theorem Atom.literals_treeBy {bracket : Bracketing} (h : bracket.Faithful) (a : Atom) :
    (a.treeBy bracket).literals = a.literals := by
  cases a with
  | literal x => rfl
  | parens inner =>
    have hinner := inner.literals_linksBy h
    rw [Atom.treeBy, Grouping.literals_join, h, hinner, Atom.literals]
theorem Formula.literals_linksBy {bracket : Bracketing} (h : bracket.Faithful) (f : Formula) :
    ((f.linksBy bracket).1 :: (f.linksBy bracket).2.map (·.2)).map Expression.literals =
      f.atomLiterals := by
  cases f with
  | single atom =>
    have hatom := atom.literals_treeBy h
    simp [Formula.linksBy, Formula.atomLiterals, hatom]
  | chain first op rest =>
    have hfirst := first.literals_treeBy h
    have hrest := rest.literals_linksBy h
    simpa [Formula.linksBy, Formula.atomLiterals, hfirst] using hrest
end

theorem Expression.literals_ne_nil (e : Expression) : e.literals ≠ [] := by
  induction e with
  | literal x => simp [literals]
  | node op left right left_ih _ => simp [literals, left_ih]

/-- Where a list of nonempty lists is cut can be seen from what lies before the
cut. -/
theorem append_inj_of_flatten {α : Type} {xs xs' ys ys' : List (List α)}
    (same : xs ++ ys = xs' ++ ys') (hflat : xs.flatten = xs'.flatten)
    (hxs : ∀ l ∈ xs, l ≠ []) (hxs' : ∀ l ∈ xs', l ≠ []) : xs = xs' ∧ ys = ys' := by
  induction xs generalizing xs' with
  | nil =>
    cases xs' with
    | nil => exact ⟨rfl, same⟩
    | cons l rest =>
      have hl := hxs' l (by simp)
      simp [hl] at hflat
  | cons l rest ih =>
    cases xs' with
    | nil =>
      have hl := hxs l (by simp)
      simp [hl] at hflat
    | cons l' rest' =>
      obtain ⟨rfl, hrest⟩ := List.cons.inj same
      obtain ⟨rfl, hys⟩ := ih hrest (List.append_cancel_left hflat)
        (fun k hk => hxs k (by simp [hk])) (fun k hk => hxs' k (by simp [hk]))
      exact ⟨rfl, hys⟩

namespace Grouping

theorem leaves_ne_nil (t : Grouping α) : t.leaves ≠ [] := by
  induction t with
  | leaf x => simp [leaves]
  | node op left right left_ih _ => simp [leaves, left_ih]

theorem two_le_leaves_node (op : BinaryOperator) (left right : Grouping α) :
    2 ≤ (node op left right).leaves.length := by
  have hleft := List.length_pos_of_ne_nil left.leaves_ne_nil
  have hright := List.length_pos_of_ne_nil right.leaves_ne_nil
  rw [leaves, List.length_append]
  omega

/-- The tree of a group shows how its atoms were bracketed, once it is known which
literals each atom holds. -/
theorem join_trees_inj {t t' : Grouping Expression}
    (hleaves : t.leaves.map Expression.literals = t'.leaves.map Expression.literals)
    (same : t.join .trees = t'.join .trees) : t = t' := by
  induction t generalizing t' with
  | leaf e =>
    cases t' with
    | leaf e' => exact congrArg leaf same
    | node op left right =>
      have htwo := two_le_leaves_node op left right
      have hlength : 1 = (node op left right).leaves.length := by
        simpa [leaves] using congrArg List.length hleaves
      omega
  | node op left right left_ih right_ih =>
    cases t' with
    | leaf e' =>
      have htwo := two_le_leaves_node op left right
      have hlength : (node op left right).leaves.length = 1 := by
        simpa [leaves] using congrArg List.length hleaves
      omega
    | node op' left' right' =>
      obtain ⟨rfl, hleft, hright⟩ := Expression.node.inj same
      rw [leaves, leaves, List.map_append, List.map_append] at hleaves
      have hflat := congrArg Expression.literals hleft
      rw [literals_join, literals_join] at hflat
      have hne (u : Grouping Expression) : ∀ l ∈ u.leaves.map Expression.literals, l ≠ [] := by
        intro l hl
        obtain ⟨e, -, rfl⟩ := List.mem_map.mp hl
        exact e.literals_ne_nil
      obtain ⟨hl, hr⟩ := append_inj_of_flatten hleaves hflat (hne left) (hne left')
      rw [left_ih hl hleft, right_ih hr hright]

end Grouping

/-- The two trees of a group agree when its atoms do and no sum is overtaken. -/
theorem Formula.tree_eq_iff (f : Formula) :
    f.tree = f.conventionalTree ↔
      ¬OvertakesSum f.operators ∧ f.linksBy reference = f.linksBy conventional := by
  rw [← f.map_linksBy conventional, ← reference_eq_conventional_iff (f.linksBy conventional).1]
  constructor
  · intro same
    have hbracket := Grouping.join_trees_inj
      (by rw [reference_faithful, conventional_faithful, f.literals_linksBy reference_faithful,
        f.literals_linksBy conventional_faithful]) same
    have hleaves := congrArg Grouping.leaves hbracket
    rw [reference_faithful, conventional_faithful] at hleaves
    obtain ⟨hfirst, hrest⟩ := List.cons.inj hleaves
    have hlinks : f.linksBy reference = f.linksBy conventional := by
      have hops : (f.linksBy reference).2.map (·.1) = (f.linksBy conventional).2.map (·.1) := by
        rw [f.map_linksBy, f.map_linksBy]
      refine Prod.ext hfirst ?_
      rw [List.zip_of_prod hops hrest, ← List.zip_of_prod rfl rfl]
    rw [hlinks] at hbracket
    exact ⟨hbracket, hlinks⟩
  · rintro ⟨hbracket, hlinks⟩
    rw [tree, treeBy, hlinks, hbracket]
    rfl

mutual
/-- The two trees of an atom are one just when no group inside it overtakes. -/
theorem Atom.treeBy_eq_iff (a : Atom) :
    a.treeBy reference = a.treeBy conventional ↔
      ∀ g ∈ a.groups, ¬OvertakesSum g.operators := by
  cases a with
  | literal x => simp [Atom.treeBy, Atom.groups]
  | parens inner =>
    have hatoms := inner.linksBy_eq_iff
    have htree := inner.tree_eq_iff
    rw [hatoms] at htree
    rw [Atom.groups, List.forall_mem_cons]
    exact htree
/-- The two trees of each atom of a formula are one just when no inner group overtakes. -/
theorem Formula.linksBy_eq_iff (f : Formula) :
    f.linksBy reference = f.linksBy conventional ↔
      ∀ g ∈ f.innerGroups, ¬OvertakesSum g.operators := by
  cases f with
  | single atom =>
    have hatom := atom.treeBy_eq_iff
    simpa [Formula.linksBy, Formula.innerGroups] using hatom
  | chain first op rest =>
    have hfirst := first.treeBy_eq_iff
    have hrest := rest.linksBy_eq_iff
    rw [Formula.innerGroups, List.forall_mem_append, ← hfirst, ← hrest]
    simp [Formula.linksBy, Prod.ext_iff]
end

/-- Convention and the reference tree agree on an expression just when no group in
it lets a product overtake a sum. -/
theorem Formula.tree_eq_conventionalTree_iff (f : Formula) :
    f.tree = f.conventionalTree ↔ ¬∃ g ∈ f.groups, OvertakesSum g.operators := by
  rw [f.tree_eq_iff, f.linksBy_eq_iff, groups, ← List.forall_mem_cons
    (p := fun g : Formula => ¬OvertakesSum g.operators)]
  simp

theorem Formula.literals_treeBy {bracket : Bracketing} (h : bracket.Faithful) (f : Formula) :
    (f.treeBy bracket).literals = f.atomLiterals.flatten := by
  rw [treeBy, Grouping.literals_join, h, f.literals_linksBy h]

/-- Both written forms of the reference tree tell it from the conventional one. -/
theorem Formula.fold_tree_eq_iff {I : Interpretation String} (brackets : Brackets I)
    (f : Formula) :
    f.tree.fold I = f.conventionalTree.fold I ↔ f.tree = f.conventionalTree := by
  have hliterals : f.tree.literals = f.conventionalTree.literals := by
    rw [tree, conventionalTree, f.literals_treeBy reference_faithful,
      f.literals_treeBy conventional_faithful]
  constructor
  · intro same
    exact Expression.eq_of_texts ((Expression.fold_inj brackets).mp same) hliterals
  · exact congrArg _

/-- The tree built for a well-formed text is the conventional one just when no group
lets a product overtake a sum. Then all answers are the conventional ones; otherwise
neither written form is. -/
theorem evaluate_conventional_iff (power : Float → Float → Float) {text : String} {f : Formula}
    (h : tokenize text = .ok f.tokens) :
    ∃ built : Expression,
      (Calculator.initial.evaluate .trees text).answer = .ok built ∧
      (∀ n, evaluate power n text = .ok (built.meaning power n)) ∧
      (built = f.conventionalTree ↔ ¬∃ g ∈ f.groups, OvertakesSum g.operators) ∧
      ((¬∃ g ∈ f.groups, OvertakesSum g.operators) →
        ∀ n, evaluate power n text = .ok (f.conventionalTree.meaning power n)) ∧
      ((∃ g ∈ f.groups, OvertakesSum g.operators) →
        ∀ n ≠ .value, evaluate power n text ≠ .ok (f.conventionalTree.meaning power n)) := by
  have hall (n : Notation) : evaluate power n text = .ok (f.tree.meaning power n) := by
    rw [← Expression.fold_interpretation]
    exact (evaluate_of_formula (n.interpretation power) h).1
  have hiff := f.tree_eq_conventionalTree_iff
  refine ⟨f.tree, ?_, hall, hiff, ?_, ?_⟩
  · rw [(evaluate_of_formula .trees h).1, Expression.fold_trees]
  · intro agrees n
    rw [hall n, hiff.mpr agrees]
  · intro departs n hn same
    have hdiffer : f.tree ≠ f.conventionalTree := fun h => hiff.mp h departs
    rw [hall n] at same
    have hwritten := Except.ok.inj same
    rw [← Expression.fold_interpretation, ← Expression.fold_interpretation] at hwritten
    cases n with
    | value => exact hn rfl
    | operatorFirst => exact hdiffer ((f.fold_tree_eq_iff .operatorFirst).mp hwritten)
    | operatorLast => exact hdiffer ((f.fold_tree_eq_iff .operatorLast).mp hwritten)

/-- In the second group of the text, not in the text as a whole, three takes the
difference before it. -/
theorem evaluate_conventional_iff_overtaken :
    let x (k : Nat) : Atom := .literal (Numeral.value ⟨k, 0⟩)
    let inner : Formula := .chain (x 1) .sub (.chain (x 2) .pow (.chain (x 2) .mul (.single (x 3))))
    let f : Formula := .chain (x 7) .add (.single (.parens inner))
    tokenize "7+(1-2^2*3)" = .ok f.tokens ∧
      evaluate Platform.power .operatorFirst "7+(1-2^2*3)" ≠ .ok f.conventionalTree.operatorFirst ∧
      evaluate Platform.power .operatorLast "7+(1-2^2*3)" ≠ .ok f.conventionalTree.operatorLast := by
  intro x inner f
  have h : tokenize "7+(1-2^2*3)" = .ok f.tokens := by
    rw [tokenize, scanText_eq_scanPieces]
    rfl
  have overtakes : ∃ g ∈ f.groups, OvertakesSum g.operators :=
    ⟨inner, by simp [f, Formula.groups, Formula.innerGroups, Atom.groups],
      [], .sub, [], .mul, [], rfl, by decide, by decide⟩
  obtain ⟨-, -, -, -, -, hdiffer⟩ := evaluate_conventional_iff Platform.power h
  have hwritten := hdiffer overtakes
  exact ⟨h, hwritten .operatorFirst (by decide), hwritten .operatorLast (by decide)⟩

end InfixCalculator
