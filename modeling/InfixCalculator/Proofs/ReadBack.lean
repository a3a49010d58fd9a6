import InfixCalculator.Proofs.Literals
import InfixCalculator.Proofs.Unsigned

/-!
A literal reads back as the double that it was written for. The digits of a numeral are
one token, whatever zeros stand before or behind them; a sign is a token of its own, so
that the double without its sign bit comes after it.
-/
namespace InfixCalculator

/-! Numerals as texts -/

/-- A character of a numeral is neither an operator nor a blank. -/
theorem numeral_char {c : Char} (h : c.isDigit ∨ c = '.') :
    Operator.ofChar? c = none ∧ isBlank c = false := by
  constructor
  · rw [Option.eq_none_iff_forall_ne_some]
    intro op hop
    obtain rfl := Operator.ofChar?_eq_some_iff.mp hop
    exact symbol_not_alphanum op (h.imp_left fun hdigit => by simp [Char.isAlphanum, hdigit])
  · rcases h with hdigit | rfl
    · have hrange : 48 ≤ c.toNat ∧ c.toNat ≤ 57 := by
        simpa [Char.isDigit, UInt32.le_iff_toNat_le] using hdigit
      simp only [isBlank, Bool.or_eq_false_iff, Bool.and_eq_false_iff, decide_eq_false_iff_not,
        beq_eq_false_iff_ne]
      omega
    · decide

theorem dropWhile_of_visible {text : List Char} (h : ∀ c ∈ text, isBlank c = false) :
    text.dropWhile isBlank = text := by
  cases text with
  | nil => rfl
  | cons c rest =>
    have hc : isBlank c = false := h c (by simp)
    simp [hc]

theorem trim_of_visible {text : List Char} (h : ∀ c ∈ text, isBlank c = false) :
    trim text = text := by
  have hback : text.reverse.dropWhile isBlank = text.reverse :=
    dropWhile_of_visible fun c hc => h c (List.mem_reverse.mp hc)
  rw [trim, dropWhile_of_visible h, hback, List.reverse_reverse]

/-- The text of a numeral says the numeral and nothing else. -/
theorem lexemes_numeral (n : Numeral) : lexemes n.text = [.ok (.operand n.value)] := by
  have hchars : ∀ c ∈ n.text, Operator.ofChar? c = none ∧ isBlank c = false := fun c hc =>
    numeral_char (n.spells_text.chars c hc)
  have hfree : OperatorFree n.text := fun c hc => (hchars c hc).1
  have htrim : trim n.text = n.text := trim_of_visible fun c hc => (hchars c hc).2
  have hspells : n.Spells (trim n.text) := htrim.symm ▸ n.spells_text
  exact (reads_iff.mp (.last hfree (.operand hspells))).symm

/-! Finite doubles -/

theorem exists_finite {x : Float} (h : x.isFinite) :
    ∃ (m : ℕ) (e : ℤ), Magnitude.ofFloat x = .finite m e := by
  have hunpacked : ((Magnitude.ofFloat x).unpacked (signOf (hasSignBit x))).isFinite := by
    rw [← unpack_toModel]
    exact h
  cases hx : Magnitude.ofFloat x with
  | notANumber | infinite =>
    rw [hx] at hunpacked
    contradiction
  | finite m e => exact ⟨m, e, rfl⟩

/-- A finite double without its sign bit is read as a numeral, and so it has none. -/
theorem hasSignBit_abs {x : Float} (h : x.isFinite) : hasSignBit x.abs = false := by
  obtain ⟨m, e, hx⟩ := exists_finite h
  rw [← value_shortestDecimal hx]
  exact Numeral.hasSignBit_value _

theorem abs_of_unsigned {x : Float} (h : x.isFinite) (unsigned : hasSignBit x = false) :
    x.abs = x :=
  Magnitude.ofFloat_inj ((hasSignBit_abs h).trans unsigned.symm) (Magnitude.ofFloat_abs x)

/-- The tokens of the literal of a finite double: the double itself, or a minus sign and the
double without its sign. -/
theorem tokenize_literalText {x : Float} (h : x.isFinite) :
    tokenize (literalText x) =
      .ok (if hasSignBit x then [.operator (.binary .sub), .operand x.abs] else [.operand x]) := by
  obtain ⟨m, e, hx⟩ := exists_finite h
  let size := (shortestDecimal x).numeral
  have hsize : lexemes size.text = [.ok (.operand x.abs)] := by
    rw [lexemes_numeral, value_shortestDecimal hx]
  have hwritten : literalText x = signed x (String.ofList size.text) := by
    simp only [literalText, hx, size]
  rw [tokenize_eq_ok_iff_lexemes, hwritten, signed]
  cases hsign : hasSignBit x with
  | false =>
    have habs := abs_of_unsigned h hsign
    simpa [habs] using hsize
  | true =>
    -- The sign is an operator with nothing before it.
    have hcut : lexemes ('-' :: size.text) = lexemes [] ++ .ok (.operator (.binary .sub)) ::
        lexemes size.text := lexemes_append_operator [] (.binary .sub) size.text
    have hnothing : lexemes [] = [] := rfl
    simp [hcut, hnothing, hsize]

/-- The negative double next to zero, three hundred and twenty-four places behind the point. -/
theorem tokenize_literalText_least :
    let x : Float := Float.ofBits 0x8000000000000001
    x.isFinite ∧ tokenize (literalText x) =
      .ok [.operator (.binary .sub), .operand (Float.ofBits 0x0000000000000001)] := by
  intro x
  have hfinite : x.isFinite := by decide +kernel
  have hsign : hasSignBit x = true := by decide +kernel
  have habs : x.abs = Float.ofBits 0x0000000000000001 := by decide +kernel
  have hread := tokenize_literalText hfinite
  rw [hsign, habs] at hread
  exact ⟨hfinite, hread⟩

end InfixCalculator
