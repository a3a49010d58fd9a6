import Mathlib
import InfixCalculator.Decimal.Binary64

/-!
The sign and the magnitude of a double, read off its bits, are what the arithmetic of
doubles works on, and a double is determined by them.
-/
namespace InfixCalculator

open Float.Model Float.Model.UnpackedFloat

/-- The size of a double that is neither zero nor infinite, in the one form that doubles
have for it: the highest of fifty-three bits is set unless the exponent is the least. -/
structure Canonical (m : ℕ) (e : ℤ) : Prop where
  pos : 0 < m
  lt : m < 2 ^ 53
  least : -1074 ≤ e
  leading : 2 ^ 52 ≤ m ∨ e = -1074

namespace Canonical

variable {m : ℕ} {e : ℤ}

theorem log2_lt (h : Canonical m e) : m.log2 < 53 := (Nat.log2_lt h.pos.ne').mpr h.lt

theorem log2_eq_iff (h : Canonical m e) : m.log2 = 52 ↔ 2 ^ 52 ≤ m := by
  have hlt := h.log2_lt
  rw [← Nat.le_log2 h.pos.ne']
  omega

end Canonical

namespace Magnitude

/-- What the exponent field and the fraction of a double say about its magnitude. -/
inductive Fields (field fraction : ℕ) : Magnitude → Prop where
  | notANumber (highest : field = 2047) (other : fraction ≠ 0) : Fields field fraction .notANumber
  | infinite (highest : field = 2047) (none : fraction = 0) : Fields field fraction .infinite
  | small {m : ℕ} (lowest : field = 0) (size : fraction = m) :
      Fields field fraction (.finite m (-1074))
  | large {m : ℕ} {e : ℤ} (biased : field = e + 1075) (size : fraction + 2 ^ 52 = m)
      (least : -1074 ≤ e) (most : e ≤ 971) : Fields field fraction (.finite m e)

/-- The magnitude of a number is the one that its bit fields say. -/
theorem fields_ofFloat (x : Float) :
    Fields (x.toBits.toNat / 2 ^ 52 % 2 ^ 11) (x.toBits.toNat % 2 ^ 52) (ofFloat x) := by
  have hfraction : Nat.pow 2 52 = 2 ^ 52 := rfl
  have hfield : Nat.pow 2 11 = 2 ^ 11 := rfl
  simp only [ofFloat, hfraction, hfield]
  split
  · split
    · exact .infinite ‹_› ‹_›
    · exact .notANumber ‹_› ‹_›
  · split
    · exact .small ‹_› rfl
    · exact .large (by omega) (by omega) (by omega) (by omega)

/-- A positive significand that bit fields spell is canonical, and its exponent is at most
the greatest one. -/
theorem Fields.canonical {field fraction m : ℕ} {e : ℤ} (h : Fields field fraction (.finite m e))
    (hfraction : fraction < 2 ^ 52) (pos : 0 < m) : Canonical m e ∧ e ≤ 971 := by
  cases h with
  | small => exact ⟨⟨pos, by omega, by omega, .inr rfl⟩, by omega⟩
  | large biased size least most => exact ⟨⟨pos, by omega, least, .inl (by omega)⟩, most⟩

theorem canonical_ofFloat {x : Float} {m : ℕ} {e : ℤ} (h : ofFloat x = .finite m e)
    (pos : 0 < m) : Canonical m e ∧ e ≤ 971 := by
  have hfields := fields_ofFloat x
  rw [h] at hfields
  exact hfields.canonical (Nat.mod_lt _ (by decide)) pos

theorem exponent_of_zero {x : Float} {e : ℤ} (h : ofFloat x = .finite 0 e) : e = -1074 := by
  have hfields := fields_ofFloat x
  rw [h] at hfields
  cases hfields with
  | small => rfl
  | large biased size => omega

def unpacked (sign : Sign) : Magnitude → UnpackedFloat
  | .notANumber => .notANumber
  | .infinite => .infinity sign
  | .finite m e => if h : 0 < m then .finite sign m e h else .zero sign

end Magnitude

/-- A canonical size whose exponent is not too high has its fields. -/
theorem Canonical.fields {m : ℕ} {e : ℤ} (h : Canonical m e) (most : e ≤ 971) :
    ∃ field fraction, field < 2 ^ 11 ∧ fraction < 2 ^ 52 ∧
      Magnitude.Fields field fraction (.finite m e) := by
  obtain ⟨pos, hlt, hleast, hleading⟩ := h
  by_cases hnormal : 2 ^ 52 ≤ m
  · exact ⟨(e + 1075).toNat, m - 2 ^ 52, by omega, by omega,
      .large (by omega) (by omega) hleast most⟩
  · obtain rfl : e = -1074 := by omega
    exact ⟨0, m, by omega, by omega, .small rfl rfl⟩

/-! Unpacking -/

theorem toNat_append_one (m : BitVec 52) : (1#1 ++ m).toNat = m.toNat + 2 ^ 52 := by
  rw [BitVec.toNat_append, ← Nat.shiftLeft_add_eq_or_of_lt m.isLt, Nat.shiftLeft_eq]
  simp [Nat.add_comm]

theorem biased_eq (e : ℤ) : e + Format.binary64.exponentBias +
    Format.binary64.mantissaBitsWithoutImplicit = e + 1075 := by
  have hbias : (Format.binary64.exponentBias : ℤ) = 1023 := rfl
  have hbits : (Format.binary64.mantissaBitsWithoutImplicit : ℤ) = 52 := rfl
  omega

/-- Unpacking gives the magnitude that the bit fields spell, with the sign of the sign
bit. -/
theorem unpack_of_fields (b : BitVec 64) {magnitude : Magnitude}
    (h : magnitude.Fields (@unpackExponent .binary64 b).toNat (@unpackMantissa .binary64 b).toNat) :
    unpack .binary64 b = magnitude.unpacked (Sign.ofBitVec (@unpackSign .binary64 b)) := by
  have hhighest : (-1#11).toNat = 2047 := rfl
  have hlowest : (0#11).toNat = 0 := rfl
  have hnone : (0#52).toNat = 0 := rfl
  have hbias := biased_eq 0
  unfold UnpackedFloat.unpack Magnitude.unpacked
  generalize @unpackSign .binary64 b = sign
  cases h with
  | notANumber highest other =>
    have he : @unpackExponent .binary64 b = -1#11 := BitVec.eq_of_toNat_eq highest
    have hm : @unpackMantissa .binary64 b ≠ 0#52 := fun heq => other (congrArg BitVec.toNat heq)
    exact (if_pos he).trans (if_neg hm)
  | infinite highest none =>
    have he : @unpackExponent .binary64 b = -1#11 := BitVec.eq_of_toNat_eq highest
    have hm : @unpackMantissa .binary64 b = 0#52 := BitVec.eq_of_toNat_eq none
    exact (if_pos he).trans (if_pos hm)
  | @small m lowest size =>
    have he : @unpackExponent .binary64 b = 0#11 := BitVec.eq_of_toNat_eq lowest
    have hne : @unpackExponent .binary64 b ≠ -1#11 := fun heq => by rw [heq] at lowest; omega
    refine (if_neg hne).trans ((if_pos he).trans ?_)
    by_cases hzero : m = 0
    · subst hzero
      exact dif_pos (BitVec.eq_of_toNat_eq size)
    · have hm : @unpackMantissa .binary64 b ≠ 0#52 := fun heq => by rw [heq] at size; omega
      refine (dif_neg hm).trans (Eq.trans ?_ (dif_pos (by omega)).symm)
      congr 1
      omega
  | large biased size least most =>
    have he : @unpackExponent .binary64 b ≠ 0#11 := fun heq => by rw [heq] at biased; omega
    have hne : @unpackExponent .binary64 b ≠ -1#11 := fun heq => by rw [heq] at biased; omega
    refine (if_neg hne).trans ((if_neg he).trans (Eq.trans ?_ (dif_pos (by omega)).symm))
    congr 1
    · exact (toNat_append_one _).trans size
    · omega

theorem toNat_unpackMantissa (b : BitVec 64) :
    (@unpackMantissa .binary64 b).toNat = b.toNat % 2 ^ 52 := by
  simp only [unpackMantissa, BitVec.toNat_cast, BitVec.extractLsb_toNat]
  simp

theorem toNat_unpackExponent (b : BitVec 64) :
    (@unpackExponent .binary64 b).toNat = b.toNat / 2 ^ 52 % 2 ^ 11 := by
  simp only [unpackExponent, BitVec.toNat_cast, BitVec.extractLsb_toNat]
  simp [Nat.shiftRight_eq_div_pow]

theorem toNat_unpackSign (b : BitVec 64) : (@unpackSign .binary64 b).toNat = b.toNat / 2 ^ 63 := by
  have hb := b.isLt
  simp only [unpackSign, BitVec.toNat_cast, BitVec.extractLsb_toNat, Nat.shiftRight_eq_div_pow]
  omega

def signOf (negative : Bool) : Sign := if negative then .negative else .positive

theorem ofBitVec_unpackSign (x : Float) :
    Sign.ofBitVec (@unpackSign .binary64 x.toModel.toBits.toBitVec) = signOf (hasSignBit x) := by
  have hsign : (@unpackSign .binary64 x.toModel.toBits.toBitVec).toNat =
      x.toBits.toNat / 2 ^ 63 := toNat_unpackSign x.toModel.toBits.toBitVec
  have hpower : Nat.pow 2 63 = 2 ^ 63 := rfl
  unfold Sign.ofBitVec signOf hasSignBit
  rw [hpower, ← hsign]
  generalize @unpackSign .binary64 x.toModel.toBits.toBitVec = sign
  have hsmall := sign.isLt
  by_cases hzero : sign = 0#1
  · subst hzero
    rfl
  · have hone : sign.toNat = 1 := by
      have hne : sign.toNat ≠ 0 := fun h => hzero (BitVec.eq_of_toNat_eq h)
      omega
    rw [if_neg hzero, hone]
    rfl

/-- Arithmetic works on the magnitude and the sign of a double. -/
theorem unpack_toModel (x : Float) :
    x.toModel.unpack = (Magnitude.ofFloat x).unpacked (signOf (hasSignBit x)) := by
  have hfields := Magnitude.fields_ofFloat x
  rw [← ofBitVec_unpackSign]
  refine unpack_of_fields _ ?_
  rw [toNat_unpackExponent, toNat_unpackMantissa]
  exact hfields

/-! Packing -/

theorem unpackSign_packComponents (sign : Sign) (e : BitVec 11) (m : BitVec 52) :
    @unpackSign .binary64 (packComponents .binary64 sign e m) = sign.toBitVec := by
  apply BitVec.eq_of_getLsbD_eq
  intro i hi
  obtain rfl : i = 0 := by omega
  simp [unpackSign, packComponents, BitVec.getLsbD_append, BitVec.getElem_append, -Nat.reduceAdd]

theorem ofBitVec_toBitVec (sign : Sign) : Sign.ofBitVec sign.toBitVec = sign := by
  cases sign <;> rfl

/-- Packing is the inverse: the packed bits have the fields that spell the magnitude. -/
theorem pack_of_fields {sign : Sign} {field fraction m : ℕ} {e : ℤ}
    (h : Magnitude.Fields field fraction (.finite m e)) (hfraction : fraction < 2 ^ 52)
    (pos : 0 < m) :
    pack .binary64 (.finite sign m e pos) =
      packComponents .binary64 sign (BitVec.ofNat 11 field) (BitVec.ofNat 52 fraction) := by
  obtain ⟨hcanonical, most⟩ := h.canonical hfraction pos
  have hwidth : Format.binary64.mantissaBits = 53 := rfl
  have hhighest : 2 ^ Format.binary64.exponentBits = 2048 := rfl
  have hlog := hcanonical.log2_eq_iff
  have hfits : ¬2 ^ Format.binary64.exponentBits ≤ (e + Format.binary64.exponentBias +
      Format.binary64.mantissaBitsWithoutImplicit).toNat + 1 := by
    rw [biased_eq]
    omega
  unfold UnpackedFloat.pack
  cases h with
  | small lowest size =>
    have hsubnormal : ¬m.log2 + 1 = Format.binary64.mantissaBits := by omega
    refine (if_neg hfits).trans ((if_neg hsubnormal).trans ?_)
    rw [lowest, size]
  | large biased size =>
    have hnormal : m.log2 + 1 = Format.binary64.mantissaBits := by omega
    refine (if_neg hfits).trans ((if_pos hnormal).trans ?_)
    have hfield : (e + Format.binary64.exponentBias +
        Format.binary64.mantissaBitsWithoutImplicit).toNat = field := by
      rw [biased_eq]
      omega
    have hmantissa : BitVec.ofNat 52 m = BitVec.ofNat 52 fraction := by
      refine BitVec.eq_of_toNat_eq ?_
      rw [BitVec.toNat_ofNat, BitVec.toNat_ofNat]
      omega
    rw [hfield, hmantissa]

/-- A size that fits the exponents of doubles is packed without loss. -/
theorem unpack_pack_finite (sign : Sign) {m : ℕ} {e : ℤ} (h : Canonical m e) (most : e ≤ 971) :
    unpack .binary64 (pack .binary64 (.finite sign m e h.pos)) = .finite sign m e h.pos := by
  obtain ⟨field, fraction, hfield, hfraction, hfields⟩ := h.fields most
  have hexponent : (BitVec.ofNat 11 field).toNat = field := by
    rw [BitVec.toNat_ofNat, Nat.mod_eq_of_lt hfield]
  have hmantissa : (BitVec.ofNat 52 fraction).toNat = fraction := by
    rw [BitVec.toNat_ofNat, Nat.mod_eq_of_lt hfraction]
  have hpacked : Magnitude.Fields
      (@unpackExponent .binary64 (packComponents .binary64 sign (BitVec.ofNat 11 field)
        (BitVec.ofNat 52 fraction))).toNat
      (@unpackMantissa .binary64 (packComponents .binary64 sign (BitVec.ofNat 11 field)
        (BitVec.ofNat 52 fraction))).toNat (.finite m e) := by
    rw [unpackExponent_packComponents, unpackMantissa_packComponents, hexponent, hmantissa]
    exact hfields
  rw [pack_of_fields hfields hfraction h.pos, unpack_of_fields _ hpacked,
    unpackSign_packComponents, ofBitVec_toBitVec]
  exact dif_pos h.pos

theorem unpack_packedNaN : unpack .binary64 (packedNaN .binary64) = .notANumber := by
  have hfields : Magnitude.Fields (@unpackExponent .binary64 (packedNaN .binary64)).toNat
      (@unpackMantissa .binary64 (packedNaN .binary64)).toNat .notANumber := by
    rw [packedNaN, unpackExponent_packComponents, unpackMantissa_packComponents]
    exact .notANumber rfl (by decide)
  exact unpack_of_fields _ hfields

/-- Nothing is lost when the magnitude of a number is packed with either sign. -/
theorem unpack_pack_ofFloat (sign : Sign) (x : Float) :
    unpack .binary64 (pack .binary64 ((Magnitude.ofFloat x).unpacked sign)) =
      (Magnitude.ofFloat x).unpacked sign := by
  cases hx : Magnitude.ofFloat x with
  | notANumber => exact unpack_packedNaN
  | infinite => cases sign <;> rfl
  | finite m e =>
    by_cases hm : 0 < m
    · obtain ⟨hcanonical, most⟩ := Magnitude.canonical_ofFloat hx hm
      have hunpacked : (Magnitude.finite m e).unpacked sign = .finite sign m e hm := dif_pos hm
      rw [hunpacked]
      exact unpack_pack_finite sign hcanonical most
    · have hunpacked : (Magnitude.finite m e).unpacked sign = .zero sign := dif_neg hm
      rw [hunpacked]
      cases sign <;> rfl

/-! Absolute values -/

theorem Magnitude.abs_unpacked (sign : Sign) (magnitude : Magnitude) :
    (magnitude.unpacked sign).abs = magnitude.unpacked .positive := by
  unfold unpacked
  split
  · rfl
  · rfl
  · split <;> rfl

/-- The absolute value is the magnitude with the positive sign. -/
theorem toModel_abs (x : Float) :
    x.abs.toModel = .pack ((Magnitude.ofFloat x).unpacked .positive) := by
  rw [← Magnitude.abs_unpacked (signOf (hasSignBit x)), ← unpack_toModel]
  rfl

def Magnitude.ofUnpacked : UnpackedFloat → Magnitude
  | .notANumber => .notANumber
  | .infinity _ => .infinite
  | .zero _ => .finite 0 (-1074)
  | .finite _ m e _ => .finite m e

theorem Magnitude.ofUnpacked_unpacked (sign : Sign) (x : Float) :
    ofUnpacked ((ofFloat x).unpacked sign) = ofFloat x := by
  cases hx : ofFloat x with
  | notANumber => rfl
  | infinite => rfl
  | finite m e =>
    by_cases hm : 0 < m
    · rw [unpacked, dif_pos hm]
      rfl
    · obtain rfl : m = 0 := by omega
      rw [unpacked, dif_neg hm, exponent_of_zero hx]
      rfl

theorem Magnitude.ofFloat_abs (x : Float) : ofFloat x.abs = ofFloat x := by
  have habs : x.abs.toModel.unpack = (ofFloat x).unpacked .positive := by
    rw [toModel_abs]
    exact unpack_pack_ofFloat .positive x
  rw [unpack_toModel] at habs
  rw [← ofUnpacked_unpacked (signOf (hasSignBit x.abs)) x.abs, habs, ofUnpacked_unpacked]

/-! Equal doubles -/

theorem eq_of_toNat_toBits {x y : Float} (h : x.toBits.toNat = y.toBits.toNat) : x = y := by
  obtain ⟨⟨_, _⟩⟩ := x
  obtain ⟨⟨_, _⟩⟩ := y
  obtain rfl := UInt64.toNat_inj.mp h
  rfl

namespace Magnitude

theorem toBitVec_of_notANumber {x : Float} (h : ofFloat x = .notANumber) :
    x.toModel.toBits.toBitVec = packedNaN .binary64 := by
  have hfields := fields_ofFloat x
  rw [h] at hfields
  cases hfields with
  | notANumber highest other =>
    refine x.toModel.valid.eq_packedNaN ?_ fun hm => other ?_
    · exact BitVec.eq_of_toNat_eq ((toNat_unpackExponent _).trans highest)
    · exact (toNat_unpackMantissa _).symm.trans (congrArg BitVec.toNat hm)

/-- There is one double that is no number. -/
theorem eq_of_notANumber {x y : Float} (hx : ofFloat x = .notANumber)
    (hy : ofFloat y = .notANumber) : x = y :=
  eq_of_toNat_toBits (congrArg BitVec.toNat
    ((toBitVec_of_notANumber hx).trans (toBitVec_of_notANumber hy).symm))

/-- A double is determined by its sign and its magnitude. -/
theorem ofFloat_inj {x y : Float} (hsign : hasSignBit x = hasSignBit y)
    (h : ofFloat x = ofFloat y) : x = y := by
  have htop : x.toBits.toNat / 2 ^ 63 = y.toBits.toNat / 2 ^ 63 := by
    have hx := x.toBits.toNat_lt
    have hy := y.toBits.toNat_lt
    have hpower : Nat.pow 2 63 = 2 ^ 63 := rfl
    simp only [hasSignBit, hpower, beq_eq_decide, decide_eq_decide] at hsign
    omega
  have hfields := fields_ofFloat x
  have hfields' := fields_ofFloat y
  rw [← h] at hfields'
  cases hx : ofFloat x with
  | notANumber => exact eq_of_notANumber hx (h ▸ hx)
  | infinite =>
    rw [hx] at hfields hfields'
    apply eq_of_toNat_toBits
    cases hfields
    cases hfields'
    omega
  | finite m e =>
    rw [hx] at hfields hfields'
    apply eq_of_toNat_toBits
    cases hfields <;> cases hfields' <;> omega

end Magnitude

end InfixCalculator
