import InfixCalculator.Proofs.ExactReading

/-!
No numeral is read as a double with its sign bit set: what rounding and division make of
doubles without a sign has none, and a numeral is read by dividing two such.
-/
namespace InfixCalculator

open Float.Model Float.Model.UnpackedFloat

inductive Unsigned : UnpackedFloat → Prop where
  | notANumber : Unsigned .notANumber
  | infinity : Unsigned (.infinity .positive)
  | zero : Unsigned (.zero .positive)
  | finite (m : ℕ) (e : ℤ) (pos : 0 < m) : Unsigned (.finite .positive m e pos)

namespace Unsigned

theorem roundWithAccuracy (m : ℕ) (e : ℤ) (accuracy : Accuracy) :
    Unsigned (roundWithAccuracy .binary64 .positive m e accuracy) := by
  unfold UnpackedFloat.roundWithAccuracy
  dsimp only
  split
  · exact .zero
  · exact .finite _ _ _

theorem div {x y : UnpackedFloat} (hx : Unsigned x) (hy : Unsigned y) :
    Unsigned (div .binary64 x y) := by
  cases hx with
  | notANumber => exact .notANumber
  | infinity =>
    cases hy with
    | notANumber | infinity => exact .notANumber
    | zero | finite => exact .infinity
  | zero =>
    cases hy with
    | notANumber | zero => exact .notANumber
    | infinity | finite => exact .zero
  | finite =>
    cases hy with
    | notANumber => exact .notANumber
    | infinity => exact .zero
    | zero => exact .infinity
    | finite => exact .roundWithAccuracy _ _ _

/-- A number in decimal notation is read without a sign. -/
theorem ofScientific (m : ℕ) (e : ℤ) : Unsigned (ofScientific .binary64 m e) := by
  unfold UnpackedFloat.ofScientific
  split
  · exact .zero
  · split
    · exact .infinity
    · split
      · exact .zero
      · split
        · exact .roundWithAccuracy _ _ _
        · exact .div (.finite _ _ _) (.finite _ _ _)

theorem normalize (n : ℕ) (e : ℤ) : Unsigned (normalize .binary64 n e .positive) := by
  unfold UnpackedFloat.normalize
  cases hcompare : compare (n : ℤ) 0 with
  | lt =>
    have hneg : (n : ℤ) < 0 := compare_lt_iff_lt.mp hcompare
    omega
  | eq => exact .zero
  | gt => exact .roundWithAccuracy _ _ _

/-- Packed, it has no sign bit. -/
theorem exists_components {x : UnpackedFloat} (h : Unsigned x) :
    ∃ exponent mantissa,
      pack .binary64 x = packComponents .binary64 .positive exponent mantissa := by
  cases h with
  | notANumber | infinity | zero => exact ⟨_, _, rfl⟩
  | finite m e pos =>
    unfold UnpackedFloat.pack
    dsimp only
    split
    · exact ⟨_, _, rfl⟩
    · split <;> exact ⟨_, _, rfl⟩

theorem hasSignBit {x : UnpackedFloat} (h : Unsigned x) :
    hasSignBit (.ofModel (.pack x)) = false := by
  obtain ⟨exponent, mantissa, hpack⟩ := h.exists_components
  have hbits : (Float.ofModel (.pack x)).toModel.toBits.toBitVec = pack .binary64 x := rfl
  have hsign := ofBitVec_unpackSign (.ofModel (.pack x))
  rw [hbits, hpack, unpackSign_packComponents, ofBitVec_toBitVec] at hsign
  cases hbit : InfixCalculator.hasSignBit (.ofModel (.pack x)) with
  | false => rfl
  | true =>
    rw [hbit] at hsign
    contradiction

/-- Without the sign bit, what arithmetic works on is unsigned. -/
theorem of_hasSignBit {x : Float} (h : InfixCalculator.hasSignBit x = false) :
    Unsigned x.toModel.unpack := by
  rw [unpack_toModel, h]
  cases Magnitude.ofFloat x with
  | notANumber => exact .notANumber
  | infinite => exact .infinity
  | finite m e =>
    by_cases pos : 0 < m
    · rw [Magnitude.unpacked, dif_pos pos]
      exact .finite m e pos
    · rw [Magnitude.unpacked, dif_neg pos]
      exact .zero

end Unsigned

/-- What is read as a numeral has no sign. -/
theorem Numeral.hasSignBit_value (n : Numeral) : hasSignBit n.value = false := by
  by_cases hshort : n.mantissa < 2 ^ 53 ∧ n.places ≤ 22
  · let places : Fin 23 := ⟨n.places, by omega⟩
    have hvalue : n.value = .ofModel (.pack (UnpackedFloat.div .binary64
        n.mantissa.toUInt64.toFloat.toModel.unpack
        Float.exactlyRepresentablePowersOfTen[places].toModel.unpack)) := dif_pos hshort
    have hmantissa : hasSignBit n.mantissa.toUInt64.toFloat = false :=
      (Unsigned.normalize n.mantissa.toUInt64.toNat 0).hasSignBit
    have hpower := (ofFloat_powerOfTen places).1
    rw [hvalue]
    exact (Unsigned.div (.of_hasSignBit hmantissa) (.of_hasSignBit hpower)).hasSignBit
  · have hvalue : n.value = .ofModel (.pack (UnpackedFloat.ofScientific .binary64 n.mantissa
        (Int.negOfNat n.places))) := dif_neg hshort
    rw [hvalue]
    exact (Unsigned.ofScientific _ _).hasSignBit

end InfixCalculator
