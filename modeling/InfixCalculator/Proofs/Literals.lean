import InfixCalculator.Decimal.Layout
import InfixCalculator.Proofs.ExactReading
import InfixCalculator.Proofs.Reading

/-!
A literal is written so that it can be read: the shortest decimal of a double reads back
to the double, the digits of a numeral spell the numeral, and so no two doubles are
written alike.
-/
namespace InfixCalculator

/-! Decimals -/

namespace Decimal

def rational (d : Decimal) : ℚ := d.significand * 10 ^ d.exponent

theorem rational_reduced (significand : ℕ) (exponent : ℤ) :
    (reduced significand exponent).rational = significand * 10 ^ exponent := by
  fun_induction reduced significand exponent with
  | case1 significand exponent h ih =>
    have hten : significand = significand / 10 * 10 := by omega
    rw [ih]
    conv_rhs => rw [hten]
    rw [zpow_add₀ (by norm_num), zpow_one]
    push_cast
    ring
  | case2 => rfl

theorem rational_numeral (d : Decimal) : d.numeral.rational = d.rational := by
  have hsplit : (10 : ℚ) ^ d.exponent = 10 ^ d.exponent.toNat / 10 ^ (-d.exponent).toNat := by
    rw [← zpow_natCast, ← zpow_natCast, ← zpow_sub₀ (by norm_num)]
    congr 1
    omega
  rw [Numeral.rational, numeral, rational, hsplit]
  push_cast [Nat.pow_eq]
  ring

end Decimal

/-- The decimal digits of a binary fraction have exactly its value. -/
theorem rational_exactDecimal (m : ℕ) (e : ℤ) : (exactDecimal m e).rational = m * 2 ^ e := by
  rw [exactDecimal, Decimal.rational_reduced]
  push_cast [Nat.pow_eq]
  rcases le_total 0 e with he | he
  · have hnone : (-e).toNat = 0 := by omega
    have hpower : (2 : ℚ) ^ e.toNat = 2 ^ e := by
      rw [← zpow_natCast, Int.toNat_of_nonneg he]
    rw [hnone, hpower, min_eq_right he]
    simp
  · have hnone : e.toNat = 0 := by omega
    have hpower : (5 : ℚ) ^ (-e).toNat = 5 ^ (-e) := by
      rw [← zpow_natCast, Int.toNat_of_nonneg (by omega)]
    have hten : (10 : ℚ) ^ e = 2 ^ e * 5 ^ e := by rw [← mul_zpow]; norm_num
    rw [hnone, hpower, min_eq_left he, hten, pow_zero, mul_one, zpow_neg]
    field_simp

/-- The size of a double, for arithmetic. -/
theorem abs_eq_ofModel {x : Float} {m : ℕ} {e : ℤ} (hx : Magnitude.ofFloat x = .finite m e)
    (hm : 0 < m) : x.abs = .ofModel (.pack (.finite .positive m e hm)) := by
  have habs : x.abs = .ofModel x.abs.toModel := rfl
  rw [habs, toModel_abs, hx]
  congr 2
  exact dif_pos hm

/-- The digits that are written for a finite double read back to its size. -/
theorem value_shortestDecimal {x : Float} {m : ℕ} {e : ℤ} (hx : Magnitude.ofFloat x = .finite m e) :
    (shortestDecimal x).numeral.value = x.abs := by
  rcases Nat.eq_zero_or_pos m with rfl | hm
  · have hzero : Decimal.numeral ⟨0, 0⟩ = ⟨0, 0⟩ := rfl
    have habs : x.abs = .ofModel (.pack (.zero .positive)) := by
      have habs : x.abs = .ofModel x.abs.toModel := rfl
      rw [habs, toModel_abs, hx]
      rfl
    rw [shortestDecimal, hx]
    simp only [if_true]
    rw [hzero, habs]
    decide +kernel
  · obtain ⟨hcanonical, -⟩ := Magnitude.canonical_ofFloat hx hm
    have hexact : (exactDecimal m e).numeral.value = x.abs := by
      rw [abs_eq_ofModel hx hm]
      refine Numeral.value_eq hcanonical ?_
      rw [Decimal.rational_numeral, rational_exactDecimal]
    rw [shortestDecimal, hx]
    simp only [hm.ne', if_false]
    -- Decimals of few digits were tried first, each by reading it.
    generalize hfound : List.findSome? _ _ = found
    cases found with
    | none => exact hexact
    | some d =>
      obtain ⟨n, -, hgrid⟩ := List.exists_of_findSome?_eq_some hfound
      have hread := List.find?_some hgrid
      exact of_decide_eq_true hread

/-! Literals -/

/-- The text of a size: the first character tells it from a sign and from the text of what
is no number. -/
structure SizeText (text : String) : Prop where
  unsigned : text.toList.head? ≠ some '-'
  number : text.toList.head? ≠ some 'n'

theorem Numeral.text_size (n : Numeral) : SizeText (String.ofList n.text) := by
  have hchars := n.spells_text.chars
  have hother {c : Char} (hc : ¬(c.isDigit ∨ c = '.')) :
      (String.ofList n.text).toList.head? ≠ some c := by
    rw [String.toList_ofList]
    exact fun h => hc (hchars c (List.mem_of_head? h))
  exact ⟨hother (by decide), hother (by decide)⟩

theorem infinite_size : SizeText "inf" := ⟨by simp, by simp⟩

theorem Numeral.text_ne_inf (n : Numeral) : String.ofList n.text ≠ "inf" := by
  intro h
  have hmem : 'i' ∈ n.text := by
    rw [← String.toList_ofList (l := n.text), h]
    simp
  exact absurd (n.spells_text.chars 'i' hmem) (by decide)

/-- A sign can be told from the digits that follow it. -/
theorem signed_inj {x y : Float} {text other : String} (h : SizeText text) (h' : SizeText other)
    (same : signed x text = signed y other) : hasSignBit x = hasSignBit y ∧ text = other := by
  have hlist := congrArg String.toList same
  unfold signed at hlist
  cases hx : hasSignBit x <;> cases hy : hasSignBit y <;>
    simp [hx, hy] at hlist ⊢
  · exact String.toList_inj.mp hlist
  · exact h.unsigned (by rw [hlist]; rfl)
  · exact h'.unsigned (by rw [← hlist]; rfl)
  · exact String.toList_inj.mp hlist

theorem signed_ne_nan {x : Float} {text : String} (h : SizeText text) : signed x text ≠ "nan" := by
  intro same
  have hlist := congrArg String.toList same
  unfold signed at hlist
  split at hlist
  · simp at hlist
  · exact h.number (by rw [hlist]; simp)

/-- How the size of a double is written, if it has one. -/
inductive WrittenSize (x : Float) : String → Prop where
  | infinite (h : Magnitude.ofFloat x = .infinite) : WrittenSize x "inf"
  | finite {m : ℕ} {e : ℤ} (h : Magnitude.ofFloat x = .finite m e) :
      WrittenSize x (String.ofList (shortestDecimal x).numeral.text)

/-- The text of a literal is the word for no number, or a sign and the digits of its
size. -/
theorem literalText_written (x : Float) :
    (Magnitude.ofFloat x = .notANumber ∧ literalText x = "nan") ∨
      ∃ text, WrittenSize x text ∧ literalText x = signed x text := by
  cases hx : Magnitude.ofFloat x with
  | notANumber => exact .inl ⟨rfl, by simp only [literalText, hx]⟩
  | infinite => exact .inr ⟨_, .infinite hx, by simp only [literalText, hx]⟩
  | finite m e => exact .inr ⟨_, .finite hx, by simp only [literalText, hx]⟩

namespace WrittenSize

variable {x y : Float} {text : String}

theorem size (h : WrittenSize x text) : SizeText text := by
  cases h with
  | infinite => exact infinite_size
  | finite => exact Numeral.text_size _

/-- The text of a size shows the magnitude. -/
theorem magnitude_eq (h : WrittenSize x text) (h' : WrittenSize y text) :
    Magnitude.ofFloat x = Magnitude.ofFloat y := by
  generalize hother : text = other at h'
  cases h with
  | infinite hx =>
    cases h' with
    | infinite hy => exact hx.trans hy.symm
    | finite => exact absurd hother.symm (Numeral.text_ne_inf _)
  | finite hx =>
    cases h' with
    | infinite => exact absurd hother (Numeral.text_ne_inf _)
    | finite hy =>
      have hnumeral := Numeral.text_injective (String.ofList_injective hother)
      have habs : x.abs = y.abs := by
        rw [← value_shortestDecimal hx, hnumeral, value_shortestDecimal hy]
      rw [← Magnitude.ofFloat_abs x, habs, Magnitude.ofFloat_abs]

end WrittenSize

/-- No two doubles are written alike. -/
theorem literalText_injective : Function.Injective literalText := by
  intro x y same
  rcases literalText_written x with ⟨hx, hnan⟩ | ⟨text, hx, htext⟩ <;>
    rcases literalText_written y with ⟨hy, hnan'⟩ | ⟨other, hy, hother⟩
  · exact Magnitude.eq_of_notANumber hx hy
  · exact absurd (hother.symm.trans (same.symm.trans hnan)) (signed_ne_nan hy.size)
  · exact absurd (htext.symm.trans (same.trans hnan')) (signed_ne_nan hx.size)
  · rw [htext, hother] at same
    obtain ⟨hsign, rfl⟩ := signed_inj hx.size hy.size same
    exact Magnitude.ofFloat_inj hsign (hx.magnitude_eq hy)

end InfixCalculator
