import Mathlib.Algebra.Ring.Int.Defs
import Mathlib.Order.Basic

/-!
# Sixty-four-bit integers that saturate

A signed 64-bit integer is an unbounded one together with the proof that it fits.
The arithmetic clamps its unbounded result into the range, so a comparison of a
difference with a bound inside the range comes out as it does over the unbounded
integers.
-/

/-- `i64` -/
structure I64 where
  value : Int
  above : -(2 ^ 63) ≤ value
  below : value < 2 ^ 63
  deriving DecidableEq

namespace I64

/-- `i64::MIN` -/
def min : I64 := ⟨-(2 ^ 63), by decide, by decide⟩

/-- `i64::MAX` -/
def max : I64 := ⟨2 ^ 63 - 1, by decide, by decide⟩

instance : LE I64 := ⟨fun first second => first.value ≤ second.value⟩

instance (first second : I64) : Decidable (first ≤ second) :=
  inferInstanceAs (Decidable (first.value ≤ second.value))

/-- The integer of the range nearest to an unbounded one. -/
def clamp (value : Int) : I64 :=
  if below : value < -(2 ^ 63) then
    min
  else if above : 2 ^ 63 ≤ value then
    max
  else
    ⟨value, by omega, by omega⟩

/-- `i64::saturating_sub` -/
def saturatingSub (first second : I64) : I64 :=
  clamp (first.value - second.value)

/-- `i64::saturating_abs` -/
def saturatingAbs (number : I64) : I64 :=
  clamp number.value.natAbs

/-- The order is that of the values. -/
theorem le_iff {first second : I64} :
    first ≤ second ↔ first.value ≤ second.value :=
  Iff.rfl

/-- Clamping keeps the side of a bound that lies in the range. -/
theorem lt_clamp_iff
    {bound value : Int}
    (above : -(2 ^ 63) ≤ bound)
    (below : bound < 2 ^ 63 - 1) :
    bound < (clamp value).value ↔ bound < value := by
  unfold clamp
  split
  · simp only [min]
    omega
  · split
    · simp only [max]
      omega
    · exact Iff.rfl

/-- A difference saturates without crossing a bound inside the range. -/
theorem lt_saturatingSub_iff
    {bound : Int}
    (first second : I64)
    (above : -(2 ^ 63) ≤ bound)
    (below : bound < 2 ^ 63 - 1) :
    bound < (saturatingSub first second).value ↔
      bound < first.value - second.value :=
  lt_clamp_iff above below

/-- A number of the range reaches a saturated difference where it reaches the
unbounded one. -/
theorem saturatingSub_le_of_le
    {first second number : I64}
    (reaches : first.value - second.value ≤ number.value) :
    saturatingSub first second ≤ number := by
  have above := number.above
  rw [le_iff]
  unfold saturatingSub clamp
  split
  · simpa only [min] using above
  · split
    · simp only [max]
      omega
    · exact reaches

end I64
