import InfixCalculator.Proofs.Nest

/-!
The grammar of infix expressions: atoms with binary operators between them, an
atom being a literal or an expression in parentheses. The tree of an expression
comes from a bracketing of each group, applied from the inside out.
-/
namespace InfixCalculator

mutual
inductive Atom where
  | literal (x : Float)
  | parens (inner : Formula)
inductive Formula where
  | single (atom : Atom)
  | chain (first : Atom) (op : BinaryOperator) (rest : Formula)
end

mutual
def Atom.tokens : Atom → List Token
  | .literal x => [.operand x]
  | .parens inner => .operator .leftParen :: (inner.tokens ++ [.operator .rightParen])
def Formula.tokens : Formula → List Token
  | .single atom => atom.tokens
  | .chain first op rest => first.tokens ++ .operator (.binary op) :: rest.tokens
end

abbrev Bracketing := Expression → List (Link Expression) → Grouping Expression

mutual
def Atom.treeBy (bracket : Bracketing) : Atom → Expression
  | .literal x => .literal x
  | .parens inner =>
    let atoms := inner.linksBy bracket
    (bracket atoms.1 atoms.2).join .trees
/-- The tree of the first atom, and the group's operators with the trees of the
atoms behind them. -/
def Formula.linksBy (bracket : Bracketing) : Formula → Expression × List (Link Expression)
  | .single atom => (atom.treeBy bracket, [])
  | .chain first op rest =>
    let atoms := rest.linksBy bracket
    (first.treeBy bracket, (op, atoms.1) :: atoms.2)
end

namespace Formula

def treeBy (bracket : Bracketing) (f : Formula) : Expression :=
  (bracket (f.linksBy bracket).1 (f.linksBy bracket).2).join .trees

/-- The tree by the reference bracketing. -/
def tree (f : Formula) : Expression := f.treeBy reference

/-- The tree by the conventional bracketing. -/
def conventionalTree (f : Formula) : Expression := f.treeBy conventional

end Formula

mutual
def Atom.nest : Atom → Nest → Nest
  | .literal x, rest => .operand x rest
  | .parens inner, rest => .group inner.nest rest
def Formula.nest : Formula → Nest
  | .single atom => atom.nest .done
  | .chain first op rest => first.nest (.operator op rest.nest)
end

mutual
theorem Atom.tokens_nest (a : Atom) (rest : Nest) :
    (a.nest rest).tokens = a.tokens ++ rest.tokens := by
  cases a with
  | literal x => rfl
  | parens inner =>
    have hinner := inner.tokens_nest
    simp [Atom.nest, Atom.tokens, hinner]
theorem Formula.tokens_nest (f : Formula) : f.nest.tokens = f.tokens := by
  cases f with
  | single atom =>
    have hatom := atom.tokens_nest .done
    simpa [Formula.nest, Formula.tokens] using hatom
  | chain first op rest =>
    have hfirst := first.tokens_nest (.operator op rest.nest)
    have hrest := rest.tokens_nest
    simpa [Formula.nest, Formula.tokens, hrest] using hfirst
end

/-- Where every segment is one expression, so is the whole group. -/
theorem Nest.program_of_segments {n : Nest} {first : Expression}
    {links : List (Link Expression)}
    (h : n.segments = (first.program, links.map fun link => (link.1, link.2.program))) :
    n.program = ((reference first links).join .trees).program := by
  rw [Nest.program, h, reference_map Expression.program]
  exact Grouping.join_map (fun _ _ _ => rfl) _

mutual
/-- An atom in front of a nest puts its own program before the first segment. -/
theorem Atom.segments_nest (a : Atom) (rest : Nest) :
    (a.nest rest).segments =
      ((a.treeBy reference).program ++ rest.segments.1, rest.segments.2) := by
  cases a with
  | literal x => rfl
  | parens inner =>
    have hinner := Nest.program_of_segments inner.segments_nest
    rw [Atom.nest, Nest.segments_group, hinner, Atom.treeBy]
/-- The segments of the nest are the programs of the atoms, bracketed by the reference. -/
theorem Formula.segments_nest (f : Formula) :
    f.nest.segments = ((f.linksBy reference).1.program,
      (f.linksBy reference).2.map fun link => (link.1, link.2.program)) := by
  cases f with
  | single atom =>
    have hatom := atom.segments_nest .done
    simpa [Formula.nest, Formula.linksBy, Nest.segments] using hatom
  | chain first op rest =>
    have hfirst := first.segments_nest (.operator op rest.nest)
    have hrest := rest.segments_nest
    simpa [Formula.nest, Formula.linksBy, Nest.segments, hrest] using hfirst
end

/-- The program of an expression's nest is the postorder of its tree. -/
theorem Formula.program_nest (f : Formula) : f.nest.program = f.tree.program :=
  Nest.program_of_segments f.segments_nest

end InfixCalculator
