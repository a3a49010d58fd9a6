import InfixCalculator.Notation
import InfixCalculator.Proofs.Grouping
import InfixCalculator.Proofs.Reading

/-!
The two written forms can be read back: a literal holds no blank and no
parenthesis, so that the text of an operation shows where its two sides begin and
end. Expressions written alike are alike up to the values behind their literals.
-/
namespace InfixCalculator

/-- Neither a blank nor a parenthesis. -/
def isPlain (c : Char) : Bool := c != ' ' && c != '(' && c != ')'

theorem isPlain_of_isDigit {c : Char} (h : c.isDigit) : isPlain c := by
  have hspace : c ≠ ' ' := by rintro rfl; simp at h
  have hopen : c ≠ '(' := by rintro rfl; simp at h
  have hclose : c ≠ ')' := by rintro rfl; simp at h
  simp [isPlain, hspace, hopen, hclose]

structure PlainText (text : String) : Prop where
  nonempty : text.toList ≠ []
  plain : ∀ c ∈ text.toList, isPlain c

theorem forall_mem_signed {p : Char → Prop} {text : String} (hminus : p '-')
    (h : ∀ c ∈ text.toList, p c) (x : Float) : ∀ c ∈ (signed x text).toList, p c := by
  unfold signed
  split
  · rw [String.toList_append]
    exact List.forall_mem_append.mpr ⟨by simpa using hminus, h⟩
  · exact h

theorem PlainText.signed {text : String} (h : PlainText text) (x : Float) :
    PlainText (signed x text) := by
  constructor
  · unfold InfixCalculator.signed
    split
    · simp
    · exact h.nonempty
  · exact forall_mem_signed (by decide) h.plain x

theorem Numeral.text_plain (n : Numeral) : PlainText (String.ofList n.text) := by
  have hspells := n.spells_text
  rw [← String.toList_ofList (l := n.text)] at hspells
  refine ⟨hspells.ne_nil, fun c hc => ?_⟩
  rcases hspells.chars c hc with hdigit | rfl
  · exact isPlain_of_isDigit hdigit
  · decide

/-- Every literal is written in plain characters. -/
theorem literalText_plain (x : Float) : PlainText (literalText x) := by
  unfold literalText
  split
  · exact ⟨by simp, by simp [isPlain]⟩
  · exact PlainText.signed ⟨by simp, by simp [isPlain]⟩ x
  · exact (Numeral.text_plain _).signed x

/-- The end of an operand: a blank, a parenthesis or the end of the text. -/
def Delimited (rest : List Char) : Prop := ∀ c ∈ rest.head?, isPlain c = false

theorem takeWhile_plain {text rest : List Char} (h : ∀ c ∈ text, isPlain c)
    (hrest : Delimited rest) : (text ++ rest).takeWhile isPlain = text := by
  rw [List.takeWhile_append_of_pos h]
  cases rest with
  | nil => simp
  | cons c rest =>
    have hc : isPlain c = false := hrest c rfl
    simp [hc]

/-- The first word of a text can be told from what follows it. -/
theorem plain_append_inj {text text' rest rest' : List Char} (h : ∀ c ∈ text, isPlain c)
    (h' : ∀ c ∈ text', isPlain c) (hrest : Delimited rest) (hrest' : Delimited rest')
    (same : text ++ rest = text' ++ rest') : text = text' ∧ rest = rest' := by
  have htext : text = text' := by
    rw [← takeWhile_plain h hrest, same, takeWhile_plain h' hrest']
  subst htext
  exact ⟨rfl, List.append_cancel_left same⟩

theorem PlainText.append_ne_cons {text : String} (h : PlainText text) (rest more : List Char) :
    text.toList ++ rest ≠ '(' :: more := by
  intro same
  have hplain := h.plain
  cases htext : text.toList with
  | nil => exact h.nonempty htext
  | cons c tail =>
    rw [htext] at same hplain
    obtain rfl : c = '(' := (List.cons.inj same).1
    exact absurd (hplain '(' (by simp)) (by decide)

/-- A way to write an operation in parentheses, with the operator in one place. -/
structure Brackets (I : Interpretation String) where
  literal : ∀ x, I.literal x = literalText x
  lead : BinaryOperator → List Char
  trail : BinaryOperator → List Char
  written : ∀ op left right, (I.combine op left right).toList =
    '(' :: (lead op ++ (left.toList ++ ' ' :: (right.toList ++ (trail op ++ [')']))))
  lead_length : ∀ op op', (lead op).length = (lead op').length
  trail_length : ∀ op op', (trail op).length = (trail op').length
  trail_delimited : ∀ op rest, Delimited (trail op ++ ')' :: rest)
  shows_operator : ∀ {op op'}, lead op = lead op' → trail op = trail op' → op = op'

def Brackets.operatorFirst : Brackets .operatorFirst where
  literal _ := rfl
  lead op := [op.symbol, ' ']
  trail _ := []
  written op left right := by simp [Interpretation.operatorFirst]
  lead_length _ _ := rfl
  trail_length _ _ := rfl
  trail_delimited _ _ := by simp [Delimited, isPlain]
  shows_operator h _ := BinaryOperator.symbol_injective (by simpa using h)

def Brackets.operatorLast : Brackets .operatorLast where
  literal _ := rfl
  lead _ := []
  trail op := [' ', op.symbol]
  written op left right := by simp [Interpretation.operatorLast]
  lead_length _ _ := rfl
  trail_length _ _ := rfl
  trail_delimited _ _ := by simp [Delimited, isPlain]
  shows_operator _ h := BinaryOperator.symbol_injective (by simpa using h)

namespace Grouping

/-- A written tree can be told from what follows it, and read back. -/
theorem join_append_inj {I : Interpretation String} (brackets : Brackets I)
    {t t' : Grouping String} (h : ∀ x ∈ t.leaves, PlainText x)
    (h' : ∀ x ∈ t'.leaves, PlainText x) {rest rest' : List Char} (hrest : Delimited rest)
    (hrest' : Delimited rest')
    (same : (t.join I).toList ++ rest = (t'.join I).toList ++ rest') :
    t = t' ∧ rest = rest' := by
  induction t generalizing t' rest rest' with
  | leaf x =>
    cases t' with
    | leaf y =>
      obtain ⟨htext, hend⟩ := plain_append_inj (h x (by simp [leaves])).plain
        (h' y (by simp [leaves])).plain hrest hrest' same
      exact ⟨congrArg leaf (String.toList_inj.mp htext), hend⟩
    | node op left right =>
      simp only [join, brackets.written] at same
      exact absurd same ((h x (by simp [leaves])).append_ne_cons _ _)
  | node op left right left_ih right_ih =>
    cases t' with
    | leaf y =>
      simp only [join, brackets.written] at same
      exact absurd same.symm ((h' y (by simp [leaves])).append_ne_cons _ _)
    | node op' left' right' =>
      simp only [join, brackets.written, List.cons_append, List.append_assoc, List.cons.injEq,
        true_and] at same
      obtain ⟨hlead, hsides⟩ := List.append_inj same (brackets.lead_length op op')
      have hgap (more : List Char) : Delimited (' ' :: more) := by simp [Delimited, isPlain]
      obtain ⟨rfl, hright⟩ := left_ih (fun x hx => h x (by simp [leaves, hx]))
        (fun x hx => h' x (by simp [leaves, hx])) (hgap _) (hgap _) hsides
      obtain ⟨rfl, hafter⟩ := right_ih (fun x hx => h x (by simp [leaves, hx]))
        (fun x hx => h' x (by simp [leaves, hx])) (brackets.trail_delimited op _)
        (brackets.trail_delimited op' _) (List.cons.inj hright).2
      obtain ⟨htrail, hrest⟩ := List.append_inj hafter (brackets.trail_length op op')
      obtain rfl := brackets.shows_operator hlead htrail
      exact ⟨rfl, (List.cons.inj hrest).2⟩

/-- Operands in brackets can be told apart. -/
theorem join_inj {I : Interpretation String} (brackets : Brackets I) {t t' : Grouping String}
    (h : ∀ x ∈ t.leaves, PlainText x) (h' : ∀ x ∈ t'.leaves, PlainText x)
    (same : t.join I = t'.join I) : t = t' := by
  have hend : Delimited [] := nofun
  have hsame : (t.join I).toList ++ [] = (t'.join I).toList ++ [] := by rw [same]
  exact (join_append_inj brackets h h' hend hend hsame).1

end Grouping

namespace Expression

def texts : Expression → Grouping String
  | literal x => .leaf (literalText x)
  | node op left right => .node op left.texts right.texts

def literals : Expression → List Float
  | literal x => [x]
  | node _ left right => left.literals ++ right.literals

theorem leaves_texts (e : Expression) : e.texts.leaves = e.literals.map literalText := by
  induction e with
  | literal x => rfl
  | node op left right left_ih right_ih =>
    simp [texts, Grouping.leaves, literals, left_ih, right_ih]

theorem plain_texts (e : Expression) : ∀ x ∈ e.texts.leaves, PlainText x := by
  intro x hx
  rw [leaves_texts] at hx
  obtain ⟨y, -, rfl⟩ := List.mem_map.mp hx
  exact literalText_plain y

/-- The written form of a tree depends only on the texts of its literals. -/
theorem fold_eq_join {I : Interpretation String} (brackets : Brackets I) (e : Expression) :
    e.fold I = e.texts.join I := by
  induction e with
  | literal x => exact brackets.literal x
  | node op left right left_ih right_ih =>
    rw [fold_node, left_ih, right_ih]
    rfl

/-- Expressions written alike have the same operators and literal texts in the
same places. -/
theorem fold_inj {I : Interpretation String} (brackets : Brackets I) {e e' : Expression} :
    e.fold I = e'.fold I ↔ e.texts = e'.texts := by
  rw [fold_eq_join brackets, fold_eq_join brackets]
  exact ⟨Grouping.join_inj brackets e.plain_texts e'.plain_texts, congrArg _⟩

theorem length_literals_texts (e : Expression) :
    e.literals.length = e.texts.leaves.length := by
  rw [leaves_texts, List.length_map]

/-- The texts show the shape, so that with the values of the literals they show
the expression. -/
theorem eq_of_texts {e e' : Expression} (htexts : e.texts = e'.texts)
    (hliterals : e.literals = e'.literals) : e = e' := by
  induction e generalizing e' with
  | literal x =>
    cases e' with
    | literal y => rw [List.cons.inj hliterals |>.1]
    | node op left right => simp [texts] at htexts
  | node op left right left_ih right_ih =>
    cases e' with
    | literal y => simp [texts] at htexts
    | node op' left' right' =>
      simp only [texts, Grouping.node.injEq] at htexts
      obtain ⟨rfl, hleft, hright⟩ := htexts
      have hlength : left.literals.length = left'.literals.length := by
        rw [length_literals_texts, hleft, length_literals_texts]
      obtain ⟨lleft, lright⟩ := List.append_inj hliterals hlength
      rw [left_ih hleft lleft, right_ih hright lright]

end Expression

end InfixCalculator
