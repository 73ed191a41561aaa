import TraceProfile.Proofs.Number.Range

/-!
# Conversions that fail

A value without a number fails a conversion by its value or its type. Two numbers fail it as well,
by their range: an infinity has no integer, and an integer can be beyond all decimals.
-/

namespace TraceProfile

/-- A fault of a wrong value or type. -/
def Fault.IsBadValue (f : Fault) : Prop := f.kind = .value ∨ f.kind = .type

namespace Json

/-- The value is an infinity. -/
def IsInfinite (value : Json) : Prop := ∃ negative, value = .real (.infinite negative)

/-- The value is an integer beyond all decimals. -/
def ExceedsDecimals (value : Json) : Prop :=
  ∃ n, value = .int n ∧ Binary64.overflowBound ≤ n.natAbs

variable {value : Json} {f : Fault}

/-- An infinity is no integer, which is a failure and not a refusal. -/
theorem toInteger_of_isInfinite (h : value.IsInfinite) :
    value.toInteger = .error Failure.infiniteInteger := by
  obtain ⟨negative, rfl⟩ := h
  rfl

/-- Nor is an integer beyond all decimals a decimal. -/
theorem toDecimal_of_exceedsDecimals (h : value.ExceedsDecimals) :
    value.toDecimal = .error Failure.decimalRange := by
  obtain ⟨n, rfl, hn⟩ := h
  rw [toDecimal, decimalOfInteger, Binary64.ofInt?_eq_none_iff.mpr hn]

/-- A value without an integer has a wrong value or type, unless it is an infinity. -/
theorem isBadValue_or_isInfinite (h : value.toInteger = .error f) :
    f.IsBadValue ∨ (f = Failure.infiniteInteger ∧ value.IsInfinite) := by
  cases value with
  | int n => cases h
  | bool b => cases h
  | real x =>
    cases x with
    | finite negative significand exponent => cases h
    | infinite negative => exact .inr ⟨(Except.error.inj h).symm, negative, rfl⟩
    | nan =>
      cases h
      exact .inl (.inl rfl)
  | text s =>
    simp only [toInteger, integerOf] at h
    split at h <;> cases h <;> exact .inl (.inl rfl)
  | null =>
    cases h
    exact .inl (.inr rfl)
  | list items =>
    cases h
    exact .inl (.inr rfl)
  | object fields =>
    cases h
    exact .inl (.inr rfl)

/-- A value without a decimal has a wrong value or type, unless it is an integer beyond them. -/
theorem isBadValue_or_exceedsDecimals (h : value.toDecimal = .error f) :
    f.IsBadValue ∨ (f = Failure.decimalRange ∧ value.ExceedsDecimals) := by
  cases value with
  | int n =>
    cases hn : Binary64.ofInt? n with
    | none =>
      have hexceeds : (int n).ExceedsDecimals := ⟨n, rfl, Binary64.ofInt?_eq_none_iff.mp hn⟩
      rw [toDecimal_of_exceedsDecimals hexceeds] at h
      exact .inr ⟨(Except.error.inj h).symm, hexceeds⟩
    | some x =>
      rw [toDecimal, decimalOfInteger, hn] at h
      cases h
  | bool b => cases b <;> cases h
  | real x => cases h
  | text s =>
    simp only [toDecimal, decimalOf] at h
    split at h <;> cases h
    exact .inl (.inl rfl)
  | null =>
    cases h
    exact .inl (.inr rfl)
  | list items =>
    cases h
    exact .inl (.inr rfl)
  | object fields =>
    cases h
    exact .inl (.inr rfl)

end Json

end TraceProfile
