/-!
# Clocks

Recorded times are ticks; a profile counts nanoseconds from its start.
-/

namespace TraceProfile

/-- The start of a profile in ticks, and the nanoseconds of a tick. -/
structure Clock where
  /-- The tick at which the profile starts. -/
  reference : Int
  /-- The nanoseconds of a tick. -/
  factor : Int
  deriving DecidableEq, Repr

/-- The clock whose ticks are nanoseconds of the profile already. -/
def Clock.plain : Clock := ⟨0, 1⟩

/-- The profile time of a tick. -/
def Clock.convert (clock : Clock) (ticks : Int) : Int := (ticks - clock.reference) * clock.factor

/-- A clock that does not run backwards keeps the order of times. -/
theorem Clock.convert_mono {clock : Clock} (forward : 0 ≤ clock.factor) {a b : Int} (h : a ≤ b) :
    clock.convert a ≤ clock.convert b :=
  Int.mul_le_mul_of_nonneg_right (by omega) forward

end TraceProfile
