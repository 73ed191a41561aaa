import Mathlib.Data.Nat.Log
import Mathlib.Tactic.Ring
import TraceProfile.Proofs.Number.Exact

/-!
# Integers beyond the floating-point numbers

The greatest finite number has 53 ones and ends half a unit before the power of two behind it. An
integer is out of range from the middle between the two on: the middle itself is rounded up, since
the significand of the greatest number is odd.
-/

namespace TraceProfile.Binary64

/-- The middle between the greatest finite number and the power of two behind it. -/
def overflowBound : Nat := (2 ^ 54 - 1) * 2 ^ 970

/-- A quotient below an even number is rounded up to it from the middle of the last unit on. -/
theorem roundQuotient_eq_iff {num half top : Nat} (hhalf : 0 < half) (htop : top % 2 = 0)
    (hnum : num < top * (2 * half)) :
    roundQuotient num (2 * half) = top ↔ (2 * top - 1) * half ≤ num := by
  have hdiv := Nat.div_add_mod num (2 * half)
  have hrem := Nat.mod_lt num (show 0 < 2 * half by omega)
  have hquotient : num / (2 * half) < top :=
    Nat.div_lt_of_lt_mul (by rwa [Nat.mul_comm (2 * half)])
  rw [roundQuotient]
  generalize num / (2 * half) = quotient at *
  generalize num % (2 * half) = remainder at *
  obtain rfl | hless : top = quotient + 1 ∨ quotient + 2 ≤ top := by omega
  · -- The last unit: its middle is where the remainder is half of the divisor.
    have hmiddle : (2 * (quotient + 1) - 1) * half = 2 * half * quotient + half := by
      rw [show 2 * (quotient + 1) - 1 = 2 * quotient + 1 by omega]
      ring
    rw [hmiddle, ← hdiv]
    split
    · omega
    · split
      · omega
      · split <;> omega
  · have hbelow : 2 * half * (quotient + 1) ≤ (2 * top - 1) * half := by
      rw [Nat.mul_right_comm]
      exact Nat.mul_le_mul_right half (by omega)
    have hnext : 2 * half * (quotient + 1) = 2 * half * quotient + 2 * half := by ring
    refine iff_of_false ?_ (by omega)
    split
    · omega
    · split
      · omega
      · split <;> omega

/-- An integer of 53 bits or more is rounded to a whole number of units. -/
theorem ofQuotient_of_large {n : Nat} (hne : n ≠ 0) (hlarge : 52 ≤ n.log2) (negative : Bool) :
    ofQuotient negative n 1 =
      pack negative (roundQuotient n (2 ^ (n.log2 - 52))) ((n.log2 : Int) - 52) := by
  have hup : powerUp ((n.log2 : Int) - 52) = 2 ^ (n.log2 - 52) := by
    rw [powerUp, show ((n.log2 : Int) - 52).toNat = n.log2 - 52 by omega, Nat.pow_eq]
  have hdown : powerDown ((n.log2 : Int) - 52) = 1 := by
    rw [powerDown, show (-((n.log2 : Int) - 52)).toNat = 0 by omega, Nat.pow_eq, Nat.pow_zero]
  rw [ofQuotient_one hne, hup, hdown, Nat.mul_one]

/-- A number is infinite if its exponent is too great, be it that rounding has carried it there. -/
theorem pack_eq_infinite_iff {negative : Bool} {significand : Nat} {exponent : Int} :
    pack negative significand exponent = infinite negative ↔
      971 < exponent ∨ exponent = 971 ∧ significand = 2 ^ 53 := by
  rw [pack, greatestExponent, show 2 * fullSignificand = 2 ^ 53 from rfl]
  by_cases hcarry : significand = 2 ^ 53
  · rw [if_pos hcarry]
    dsimp only
    split <;> simp <;> omega
  · rw [if_neg hcarry]
    dsimp only
    split <;> simp <;> omega

/-- What a significand and an exponent make is an infinity or a finite number. -/
theorem pack_eq_infinite_or_finite (negative : Bool) (significand : Nat) (exponent : Int) :
    pack negative significand exponent = infinite negative ∨
      ∃ significand' exponent', pack negative significand exponent =
        finite negative significand' exponent' := by
  rw [pack]
  split
  split
  · exact .inl rfl
  · exact .inr ⟨_, _, rfl⟩

/-- Rounding carries to a 54th bit from the middle behind the last 53-bit significand on. -/
theorem roundQuotient_eq_carry_iff {n k : Nat} (hne : n ≠ 0) (h : n.log2 < k + 54) :
    roundQuotient n (2 ^ (k + 1)) = 2 ^ 53 ↔ (2 ^ 54 - 1) * 2 ^ k ≤ n := by
  have hbits : n < 2 ^ (k + 54) := (Nat.log2_lt hne).mp h
  rw [Nat.pow_succ']
  refine roundQuotient_eq_iff (Nat.two_pow_pos k) rfl (Nat.lt_of_lt_of_eq hbits ?_)
  rw [← Nat.pow_succ', ← Nat.pow_add]
  exact congrArg (2 ^ ·) (by omega)

/-- The bound is a number of 1024 bits. -/
theorem log2_overflowBound : overflowBound.log2 = 1023 := by
  have hbits (k : Nat) : ((2 ^ 54 - 1) * 2 ^ k).log2 = 53 + k := by
    have hpos : 0 < 2 ^ k := Nat.two_pow_pos k
    rw [Nat.log2_eq_iff (Nat.mul_ne_zero (by decide) hpos.ne'), Nat.add_right_comm, Nat.pow_add,
      Nat.pow_add]
    exact ⟨Nat.mul_le_mul_right _ (by decide), Nat.mul_lt_mul_of_pos_right (by decide) hpos⟩
  exact hbits 970

/-- An integer of at least 53 bits becomes an infinity from the bound on. -/
theorem ofQuotient_eq_infinite_iff {n : Nat} (hne : n ≠ 0) (hlarge : 52 ≤ n.log2)
    (negative : Bool) :
    ofQuotient negative n 1 = infinite negative ↔ overflowBound ≤ n := by
  rw [ofQuotient_of_large hne hlarge, pack_eq_infinite_iff]
  have hmono {m n : Nat} (h : m ≤ n) : m.log2 ≤ n.log2 := by
    simpa only [Nat.log2_eq_log_two] using Nat.log_mono_right h
  have hbound := log2_overflowBound
  rcases Nat.lt_trichotomy n.log2 1023 with hless | hlast | hgreater
  · have hbelow : ¬ overflowBound ≤ n := fun h => by
      have := hmono h
      omega
    exact iff_of_false (by omega) hbelow
  · have hunit : n.log2 - 52 = 970 + 1 := by omega
    rw [overflowBound, ← roundQuotient_eq_carry_iff hne (k := 970) (by omega), hunit]
    exact ⟨fun h => (h.resolve_left (by omega)).2, fun h => .inr ⟨by omega, h⟩⟩
  · have habove : overflowBound ≤ n := Nat.le_of_not_le fun h => by
      have := hmono h
      omega
    exact iff_of_true (by omega) habove

/-- An integer lies beyond all numbers from the middle between the greatest one and the next power
of two on. -/
theorem ofInt?_eq_none_iff {n : Int} : ofInt? n = none ↔ overflowBound ≤ n.natAbs := by
  rcases Nat.lt_or_ge integerBound n.natAbs with hlarge | hsmall
  · have hne : n.natAbs ≠ 0 := Nat.ne_of_gt (Nat.zero_lt_of_lt hlarge)
    have hlog : 52 ≤ n.natAbs.log2 := (Nat.le_log2 hne).mpr (Nat.le_trans (by decide) hlarge.le)
    rw [← ofQuotient_eq_infinite_iff hne hlog (n < 0), ofInt?, ofQuotient_of_large hne hlog]
    rcases pack_eq_infinite_or_finite (n < 0) (roundQuotient n.natAbs (2 ^ (n.natAbs.log2 - 52)))
      ((n.natAbs.log2 : Int) - 52) with hvalue | ⟨significand, exponent, hvalue⟩ <;> simp [hvalue]
  · obtain ⟨significand, exponent, hvalue, -⟩ := isInteger_ofQuotient hsmall
    have hbelow : integerBound < overflowBound := by decide +kernel
    rw [ofInt?, hvalue]
    exact iff_of_false (Option.some_ne_none _) (by omega)

end TraceProfile.Binary64
