import InfixCalculator.Decimal.Numeral
import InfixCalculator.Proofs.Doubles

/-!
A numeral whose number is a double is read as that double: rounding leaves a number
alone that has the form of a double, and both ways in which a numeral is read, the
division of two doubles and the division of whole numbers, come to such a number.
-/
namespace InfixCalculator

open Float.Model Float.Model.UnpackedFloat

/-! Rounding -/

theorem log2_mul_two_pow {m : ℕ} (hm : 0 < m) (k : ℕ) : (m * 2 ^ k).log2 = m.log2 + k := by
  induction k with
  | zero => simp
  | succ k ih =>
    have hne : m * 2 ^ k ≠ 0 := by positivity
    have hdouble : m * 2 ^ (k + 1) = 2 * (m * 2 ^ k) := by ring
    rw [hdouble, Nat.log2_two_mul hne, ih]
    omega

/-- The exponent that rounding aims at. -/
theorem target_eq (m : ℕ) (e : ℤ) : Format.binary64.targetExponent (totalExponent m e) =
    max (m.log2 + e - 52) (-1074) := by
  have hwidth : (Format.binary64.mantissaBits : ℤ) = 53 := rfl
  have hleast : Format.binary64.minExponent = -1074 := rfl
  rw [Format.targetExponent, totalExponent, hwidth, hleast]
  congr 1
  ring

/-- Dropping the zeros at the end of a number loses nothing. -/
theorem shiftRight_exact (m k : ℕ) :
    (⟨m * 2 ^ k, false, false⟩ : ExtendedMantissa) >>> k = ⟨m, false, false⟩ := by
  induction k generalizing m with
  | zero => simp only [pow_zero, mul_one]; rfl
  | succ k ih =>
    have hdouble : m * 2 ^ (k + 1) = m * 2 * 2 ^ k := by ring
    have hstep : (⟨m * 2 * 2 ^ k, false, false⟩ : ExtendedMantissa) >>> (k + 1) =
        ((⟨m * 2 * 2 ^ k, false, false⟩ : ExtendedMantissa) >>> k).shiftRightOne := rfl
    rw [hdouble, hstep, ih]
    simp [ExtendedMantissa.shiftRightOne]

namespace Canonical

variable {m : ℕ} {e : ℤ}

theorem target (h : Canonical m e) (k : ℕ) :
    Format.binary64.targetExponent (totalExponent (m * 2 ^ k) (e - k)) = e := by
  have hlt := h.log2_lt
  have hleading := h.leading
  have hleast := h.least
  rw [← h.log2_eq_iff] at hleading
  rw [target_eq, log2_mul_two_pow h.pos]
  push_cast
  omega

/-- Shifting back to the target exponent recovers the significand exactly. -/
theorem shift (h : Canonical m e) (k : ℕ) :
    shiftToTargetExponent .binary64 (m * 2 ^ k) (e - k) .exact = (⟨m, false, false⟩, e) := by
  have hcount : (e - (e - k)).toNat = k := by omega
  unfold shiftToTargetExponent shiftToExponent
  simp only [h.target k, hcount, ExtendedMantissa.ofMantissaAndAccuracy, shiftRight_exact]
  congr 1
  omega

/-- A number in the form of a double is not changed by rounding. -/
theorem round (h : Canonical m e) (sign : Sign) (k : ℕ) :
    roundWithAccuracy .binary64 sign (m * 2 ^ k) (e - k) .exact = .finite sign m e h.pos := by
  have hagain : shiftToTargetExponent .binary64 m e .exact = (⟨m, false, false⟩, e) := by
    simpa using h.shift 0
  have hrounded : (⟨m, false, false⟩ : ExtendedMantissa).roundedMantissa = m := rfl
  simp only [roundWithAccuracy, h.shift k, hrounded, hagain]
  exact dif_neg h.pos.ne'

/-- The same for any other way to write the number with an exponent that is not greater. -/
theorem round_of_eq (h : Canonical m e) (sign : Sign) {n : ℕ} {f : ℤ} (hle : f ≤ e)
    (heq : (n : ℚ) * 2 ^ f = m * 2 ^ e) :
    roundWithAccuracy .binary64 sign n f .exact = .finite sign m e h.pos := by
  obtain ⟨k, hk⟩ := Int.le.dest hle
  obtain rfl : f = e - k := by omega
  have hn : n = m * 2 ^ k := by
    have hpower : (2 : ℚ) ^ e = 2 ^ (e - k) * 2 ^ k := by
      rw [← zpow_natCast, ← zpow_add₀ (by norm_num)]
      congr 1
      ring
    rw [hpower, ← mul_assoc, mul_right_comm] at heq
    exact_mod_cast mul_right_cancel₀ (by positivity) heq
  rw [hn]
  exact h.round sign k

end Canonical

/-! Division -/

/-- Below the power of two above it and not below the one beneath it. -/
theorem two_pow_log2_le {m : ℕ} (hm : 0 < m) : (2 : ℚ) ^ (m.log2 : ℤ) ≤ m := by
  have h := Nat.log2_self_le hm.ne'
  rw [zpow_natCast]
  exact_mod_cast h

theorem lt_two_pow_log2 (m : ℕ) : (m : ℚ) < 2 ^ (m.log2 + 1 : ℤ) := by
  have h := Nat.lt_log2_self (n := m)
  rw [← Nat.cast_one, ← Nat.cast_add, zpow_natCast]
  exact_mod_cast h

namespace Canonical

variable {m : ℕ} {e : ℤ} {m₁ m₂ : ℕ} {e₁ e₂ : ℤ}

/-- Enough digits of a quotient are computed to see all of a number in the form of a
double. -/
theorem quotient_target_le (h : Canonical m e) (p₁ : 0 < m₁)
    (heq : (m₁ : ℚ) * 2 ^ e₁ = m * 2 ^ e * (m₂ * 2 ^ e₂)) :
    Format.binary64.targetExponent (totalExponent m₁ e₁ - totalExponent m₂ e₂) ≤ e := by
  have hlow : (2 : ℚ) ^ (m₁.log2 + e₁ : ℤ) ≤ m₁ * 2 ^ e₁ := by
    rw [zpow_add₀ (by norm_num)]
    gcongr
    exact two_pow_log2_le p₁
  have hm : (m : ℚ) < 2 ^ (53 : ℤ) := by exact_mod_cast h.lt
  have hhigh : (m : ℚ) * 2 ^ e * (m₂ * 2 ^ e₂) < 2 ^ (53 + e + (m₂.log2 + 1 + e₂) : ℤ) := by
    rw [zpow_add₀ (by norm_num) (53 + e), zpow_add₀ (by norm_num) 53,
      zpow_add₀ (by norm_num) (m₂.log2 + 1 : ℤ)]
    have hm₂ := lt_two_pow_log2 m₂
    gcongr
  have hexponents : (m₁.log2 + e₁ : ℤ) < 53 + e + (m₂.log2 + 1 + e₂) := by
    rw [← zpow_lt_zpow_iff_right₀ (by norm_num : (1 : ℚ) < 2)]
    exact hlow.trans_lt (heq ▸ hhigh)
  have hleast := h.least
  have hwidth : (Format.binary64.mantissaBits : ℤ) = 53 := rfl
  have hmin : Format.binary64.minExponent = -1074 := rfl
  rw [Format.targetExponent, hwidth, hmin, totalExponent, totalExponent]
  omega

/-- A quotient in the form of a double is found by division. -/
theorem div_eq (h : Canonical m e) (p₁ : 0 < m₁) (p₂ : 0 < m₂)
    (heq : (m₁ : ℚ) * 2 ^ e₁ = m * 2 ^ e * (m₂ * 2 ^ e₂)) :
    div .binary64 (.finite .positive m₁ e₁ p₁) (.finite .positive m₂ e₂ p₂) =
      .finite .positive m e h.pos := by
  let target := min (e₁ - e₂)
    (Format.binary64.targetExponent (totalExponent m₁ e₁ - totalExponent m₂ e₂))
  have hle : target ≤ e := (min_le_right _ _).trans (h.quotient_target_le p₁ heq)
  obtain ⟨k, hk⟩ := Int.le.dest hle
  obtain ⟨s, hs⟩ := Int.le.dest (min_le_left _ _ : target ≤ e₁ - e₂)
  have hcount : (e₁ - e₂ - target).toNat = s := by omega
  have hscaled : m₁ <<< s = m * 2 ^ k * m₂ := by
    rw [Nat.shiftLeft_eq]
    have hrational : (m₁ : ℚ) * 2 ^ (s : ℤ) = m * 2 ^ (k : ℤ) * m₂ := by
      have hleft : (2 : ℚ) ^ (s : ℤ) = 2 ^ e₁ * 2 ^ (-e₂ - target) := by
        rw [← zpow_add₀ (by norm_num)]
        congr 1
        omega
      have hright : (2 : ℚ) ^ (k : ℤ) = 2 ^ e * 2 ^ e₂ * 2 ^ (-e₂ - target) := by
        rw [← zpow_add₀ (by norm_num), ← zpow_add₀ (by norm_num)]
        congr 1
        omega
      rw [hleft, hright, ← mul_assoc, heq]
      ring
    rw [zpow_natCast, zpow_natCast] at hrational
    exact_mod_cast hrational
  have hdiv : div .binary64 (.finite .positive m₁ e₁ p₁) (.finite .positive m₂ e₂ p₂) =
      roundWithAccuracy .binary64 .positive (m₁ <<< (e₁ - e₂ - target).toNat / m₂) target
        (accuracyOfFraction (m₁ <<< (e₁ - e₂ - target).toNat % m₂) m₂) := rfl
  have htarget : target = e - k := by omega
  rw [hdiv, hcount, hscaled, Nat.mul_div_cancel _ p₂, Nat.mul_mod_left, htarget]
  exact h.round .positive k

end Canonical

/-! Whole numbers and powers of ten as doubles -/

/-- A whole number of at most fifty-three bits, in the form of a double. -/
theorem canonical_of_lt {n : ℕ} (pos : 0 < n) (hlt : n < 2 ^ 53) :
    Canonical (n * 2 ^ (52 - n.log2)) (n.log2 - 52) := by
  have hlog : n.log2 < 53 := (Nat.log2_lt pos.ne').mpr hlt
  have hlow := Nat.log2_self_le pos.ne'
  have hhigh := Nat.lt_log2_self (n := n)
  have hpower (k : ℕ) : 2 ^ (n.log2 + k) * 2 ^ (52 - n.log2) = 2 ^ (52 + k) := by
    rw [← pow_add]
    congr 1
    omega
  refine ⟨by positivity, ?_, by omega, .inl ?_⟩
  · rw [← hpower 1]
    gcongr
  · rw [← hpower 0]
    gcongr
    exact hlow

theorem rational_of_lt {n : ℕ} (pos : 0 < n) (hlt : n < 2 ^ 53) :
    ((n * 2 ^ (52 - n.log2) : ℕ) : ℚ) * 2 ^ (n.log2 - 52 : ℤ) = n := by
  have hlog : n.log2 < 53 := (Nat.log2_lt pos.ne').mpr hlt
  have hcancel : (2 : ℚ) ^ ((52 - n.log2 : ℕ) : ℤ) * 2 ^ (n.log2 - 52 : ℤ) = 1 := by
    rw [← zpow_add₀ (by norm_num), ← zpow_zero 2]
    congr 1
    omega
  rw [zpow_natCast] at hcancel
  push_cast
  rw [mul_assoc, hcancel, mul_one]

/-- A whole number of at most 53 bits becomes a double of exactly its value. -/
theorem unpack_toFloat {n : ℕ} (pos : 0 < n) (hlt : n < 2 ^ 53) :
    n.toUInt64.toFloat.toModel.unpack = .finite .positive (n * 2 ^ (52 - n.log2))
      (n.log2 - 52) (canonical_of_lt pos hlt).pos := by
  have hlog : n.log2 < 53 := (Nat.log2_lt pos.ne').mpr hlt
  have hcanonical := canonical_of_lt pos hlt
  have hword : n.toUInt64.toNat = n := by
    rw [Nat.toUInt64_eq, UInt64.toNat_ofNat_of_lt' (hlt.trans (by decide))]
  have hcompare : compare (n : ℤ) 0 = .gt := by
    rw [compare_gt_iff_gt]
    exact_mod_cast pos
  have hround : UnpackedFloat.round .binary64 .positive n 0 =
      .finite .positive (n * 2 ^ (52 - n.log2)) (n.log2 - 52) hcanonical.pos := by
    have htarget : Format.binary64.targetExponent (totalExponent n 0) = n.log2 - 52 := by
      rw [target_eq]
      omega
    have hcount : (0 - (n.log2 - 52 : ℤ)).toNat = 52 - n.log2 := by omega
    have hexponent : (0 : ℤ) - (52 - n.log2 : ℕ) = n.log2 - 52 := by omega
    simp only [UnpackedFloat.round, decreaseExponent, htarget, hcount, hexponent,
      Nat.shiftLeft_eq]
    exact hcanonical.round_of_eq .positive le_rfl rfl
  have hmodel : n.toUInt64.toFloat.toModel =
      .pack (UnpackedFloat.normalize .binary64 n.toUInt64.toNat 0 .positive) := rfl
  rw [hmodel, hword, UnpackedFloat.normalize, hcompare]
  simp only [Int.toNat_natCast, hround]
  exact unpack_pack_finite .positive hcanonical (by omega)

/-- Each power of ten in the table is a double of exactly that value. -/
theorem ofFloat_powerOfTen (places : Fin 23) :
    let power := Float.exactlyRepresentablePowersOfTen[places]
    let significand := 10 ^ places.val * 2 ^ 52 / 2 ^ (10 ^ places.val).log2
    hasSignBit power = false ∧
      Magnitude.ofFloat power = .finite significand ((10 ^ places.val).log2 - 52) ∧
      significand * 2 ^ (10 ^ places.val).log2 = 10 ^ places.val * 2 ^ 52 := by
  revert places
  decide +kernel

/-- The first powers of ten as doubles. -/
theorem unpack_powerOfTen (places : Fin 23) :
    ∃ (c : ℕ) (d : ℤ) (pos : 0 < c), (c : ℚ) * 2 ^ d = 10 ^ places.val ∧
      Float.exactlyRepresentablePowersOfTen[places].toModel.unpack =
        .finite .positive c d pos := by
  obtain ⟨hsign, hmagnitude, hscaled⟩ := ofFloat_powerOfTen places
  generalize 10 ^ places.val * 2 ^ 52 / 2 ^ (10 ^ places.val).log2 = c at hmagnitude hscaled
  have pos : 0 < c := by
    refine Nat.pos_of_ne_zero fun hzero => ?_
    rw [hzero, zero_mul] at hscaled
    exact absurd hscaled (by positivity)
  refine ⟨c, (10 ^ places.val).log2 - 52, pos, ?_, ?_⟩
  · have hrational : (c : ℚ) * 2 ^ ((10 ^ places.val).log2 : ℤ) =
        10 ^ places.val * 2 ^ (52 : ℤ) := by
      rw [zpow_natCast]
      exact_mod_cast hscaled
    rw [zpow_sub₀ (by norm_num), ← mul_div_assoc, hrational, mul_div_cancel_right₀]
    positivity
  · rw [unpack_toModel, hsign, hmagnitude]
    exact dif_pos pos

/-! Numerals -/

namespace Numeral

variable {m : ℕ} {e : ℤ}

/-- The number that a numeral spells. -/
def rational (n : Numeral) : ℚ := n.mantissa / 10 ^ n.places

/-- A short numeral is read by dividing two doubles. -/
theorem value_of_short {n : Numeral} (h : Canonical m e) (heq : n.rational = m * 2 ^ e)
    (pos : 0 < n.mantissa) (hmantissa : n.mantissa < 2 ^ 53) (hplaces : n.places ≤ 22) :
    n.value = .ofModel (.pack (.finite .positive m e h.pos)) := by
  let places : Fin 23 := ⟨n.places, by omega⟩
  obtain ⟨c, d, hc, hpower, hunpack⟩ := unpack_powerOfTen places
  have hvalue : n.value = .ofModel (.pack (div .binary64 n.mantissa.toUInt64.toFloat.toModel.unpack
      Float.exactlyRepresentablePowersOfTen[places].toModel.unpack)) :=
    dif_pos ⟨hmantissa, hplaces⟩
  have hquotient : ((n.mantissa * 2 ^ (52 - n.mantissa.log2) : ℕ) : ℚ) *
      2 ^ (n.mantissa.log2 - 52 : ℤ) = m * 2 ^ e * (c * 2 ^ d) := by
    rw [rational_of_lt pos hmantissa, hpower, ← heq, rational, div_mul_cancel₀]
    positivity
  rw [hvalue, unpack_toFloat pos hmantissa, hunpack, h.div_eq _ hc hquotient]

/-- A numeral of a double does not have too many places. -/
theorem places_le {n : Numeral} (h : Canonical m e) (heq : n.rational = m * 2 ^ e) :
    n.places ≤ 2048 + n.mantissa.log2 := by
  have hleast : (2 : ℚ) ^ (-1074 : ℤ) ≤ m * 2 ^ e := by
    have hm : (1 : ℚ) ≤ m := by exact_mod_cast h.pos
    have he : (2 : ℚ) ^ (-1074 : ℤ) ≤ 2 ^ e := zpow_le_zpow_right₀ (by norm_num) h.least
    exact he.trans (le_mul_of_one_le_left (by positivity) hm)
  have hten : (2 : ℚ) ^ (3 * n.places : ℤ) ≤ 10 ^ n.places := by
    rw [zpow_mul, zpow_natCast]
    gcongr
    norm_num
  have hbound : (2 : ℚ) ^ (-1074 + 3 * n.places : ℤ) < 2 ^ (n.mantissa.log2 + 1 : ℤ) := by
    calc (2 : ℚ) ^ (-1074 + 3 * n.places : ℤ) = 2 ^ (-1074 : ℤ) * 2 ^ (3 * n.places : ℤ) :=
          zpow_add₀ (by norm_num) _ _
      _ ≤ n.rational * 10 ^ n.places := by
          rw [heq]
          gcongr
      _ = n.mantissa := div_mul_cancel₀ _ (by positivity)
      _ < 2 ^ (n.mantissa.log2 + 1 : ℤ) := lt_two_pow_log2 _
  rw [zpow_lt_zpow_iff_right₀ (by norm_num)] at hbound
  omega

/-- A whole number of more than fifty-three bits that is a double is a multiple of its
significand. -/
theorem exponent_nonneg {n : ℕ} (h : Canonical m e) (heq : (n : ℚ) = m * 2 ^ e)
    (hlong : 2 ^ 53 ≤ n) : 0 ≤ e := by
  by_contra hneg
  have hsmall : (2 : ℚ) ^ e ≤ 1 := zpow_le_one_of_nonpos₀ (by norm_num) (by omega)
  have hrational : (n : ℚ) ≤ m := by
    rw [heq]
    exact mul_le_of_le_one_right (by positivity) hsmall
  have hle : n ≤ m := by exact_mod_cast hrational
  have hlt := h.lt
  omega

/-- Any other numeral is read by dividing whole numbers, or as it is if it has no places. -/
theorem value_of_long {n : Numeral} (h : Canonical m e) (heq : n.rational = m * 2 ^ e)
    (pos : 0 < n.mantissa) (hlong : ¬(n.mantissa < 2 ^ 53 ∧ n.places ≤ 22)) :
    n.value = .ofModel (.pack (.finite .positive m e h.pos)) := by
  have hvalue : n.value = .ofModel (.pack (UnpackedFloat.ofScientific .binary64 n.mantissa
      (-(n.places : ℤ)))) := by
    rw [← Int.ofNat_eq_natCast, ← Int.negOfNat_eq]
    exact dif_neg hlong
  have hplaces := places_le h heq
  have hlimit : (2 : ℤ) ^ Format.binary64.exponentBits = 2048 := rfl
  rw [hvalue, UnpackedFloat.ofScientific, dif_neg pos.ne', hlimit, if_neg (by omega),
    if_neg (by omega)]
  congr 2
  by_cases hwhole : n.places = 0
  · have hmantissa : (n.mantissa : ℚ) = m * 2 ^ e := by
      rw [← heq, rational, hwhole, pow_zero, div_one]
    have hexponent := exponent_nonneg h hmantissa (by omega)
    have hwidth : Format.binary64.mantissaBits = 53 := rfl
    rw [if_pos (by omega)]
    refine h.round_of_eq .positive (by omega) ?_
    have hzero : (-(n.places : ℤ)).toNat = 0 := by omega
    have hscale : ((2 ^ 53 : ℕ) : ℚ) * 2 ^ (-53 : ℤ) = 1 := by norm_num
    rw [hzero, pow_zero, mul_one, add_zero, hwidth, Nat.shiftLeft_eq, ← hmantissa,
      Nat.cast_mul, mul_assoc]
    exact (congrArg _ hscale).trans (mul_one _)
  · have hten : (-(-(n.places : ℤ))).toNat = n.places := by omega
    rw [if_neg (by omega)]
    refine h.div_eq _ _ ?_
    rw [hten, zpow_zero, mul_one, mul_one, ← heq, rational]
    push_cast
    rw [div_mul_cancel₀]
    positivity

/-- A numeral is read as the double that it spells. -/
theorem value_eq {n : Numeral} (h : Canonical m e) (heq : n.rational = m * 2 ^ e) :
    n.value = .ofModel (.pack (.finite .positive m e h.pos)) := by
  have pos : 0 < n.mantissa := by
    refine Nat.pos_of_ne_zero fun hzero => ?_
    have hm : (m : ℚ) ≠ 0 := by exact_mod_cast h.pos.ne'
    rw [rational, hzero, Nat.cast_zero, zero_div] at heq
    exact absurd heq.symm (by positivity)
  by_cases hshort : n.mantissa < 2 ^ 53 ∧ n.places ≤ 22
  · exact value_of_short h heq pos hshort.1 hshort.2
  · exact value_of_long h heq pos hshort

end Numeral

end InfixCalculator
