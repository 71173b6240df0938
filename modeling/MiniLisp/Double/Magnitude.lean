import MiniLisp.Double.Power

namespace MiniLisp

/-!
# Sizes of doubles

The size of a finite double is a whole number of units of `2 ^ -1074`, the
least positive one.  Of these numbers exactly those with at most 53 significant
bits and below `2 ^ 2098` are sizes; `Representable` says so, and `Magnitude`
bundles such a number with the proof.

Every operation on doubles is exact arithmetic on units followed by one
rounding to the nearest size, a half going to the even neighbour.
-/

/-- How many units make one. -/
def unitsPerOne : Nat := pow2 1074

/-- The number of units from which on nothing is finite any more. -/
def unitsBound : Nat := pow2 2098

/-- How many low bits of a number a significand of 53 bits cannot hold. -/
def excessBits (units : Nat) : Nat :=
  units.log2 - 52

/-- A number of units that some finite double has as its size. -/
def Representable (units : Nat) : Prop :=
  units < unitsBound ∧ pow2 (excessBits units) ∣ units

instance (units : Nat) : Decidable (Representable units) :=
  inferInstanceAs (Decidable (_ ∧ _))

/-- The size of a finite double. -/
structure Magnitude where
  units : Nat
  representable : Representable units
  deriving DecidableEq

/-- The whole number nearest to a quotient; a half goes to the even neighbour. -/
def roundDiv (numerator denominator : Nat) : Nat :=
  let whole := numerator / denominator
  let twice := 2 * (numerator % denominator)
  if twice < denominator ∨ (twice = denominator ∧ whole % 2 = 0) then
    whole
  else
    whole + 1

/-- A quotient rounded to 53 significant bits, and to a whole number of units. -/
def roundUnits (numerator denominator : Nat) : Nat :=
  let drop := excessBits (numerator / denominator)
  roundDiv numerator (denominator * pow2 drop) * pow2 drop

/-- Rounding moves a quotient up by less than one. -/
theorem roundDiv_le (numerator denominator : Nat) :
    roundDiv numerator denominator ≤ numerator / denominator + 1 := by
  simp only [roundDiv]
  split <;> omega

/-- A multiple of a power of two that is not too long has few significant bits. -/
theorem pow2_excessBits_dvd
    {units drop : Nat}
    (multiple : pow2 drop ∣ units)
    (short : units < pow2 (53 + drop)) :
    pow2 (excessBits units) ∣ units := by
  by_cases nothing : units = 0
  · rw [nothing]
    exact Nat.dvd_zero _
  · have bits := log2_lt_of_lt_pow2 nothing short
    refine Nat.dvd_trans (pow2_dvd_pow2 ?_) multiple
    simp only [excessBits]
    omega

/-- A rounded quotient has at most 53 significant bits. -/
theorem pow2_excessBits_dvd_roundUnits (numerator denominator : Nat) :
    pow2 (excessBits (roundUnits numerator denominator)) ∣ roundUnits numerator denominator := by
  simp only [roundUnits]
  generalize chosen : excessBits (numerator / denominator) = drop
  have below : numerator / denominator < pow2 (53 + drop) := by
    refine Nat.lt_of_lt_of_le (lt_pow2_log2 _) (pow2_le_pow2 ?_)
    simp only [excessBits] at chosen
    omega
  have quotient : numerator / (denominator * pow2 drop) < pow2 53 := by
    rw [← Nat.div_div_eq_div_mul]
    refine Nat.div_lt_of_lt_mul ?_
    rwa [← pow2_add, Nat.add_comm]
  have rounded := roundDiv_le numerator (denominator * pow2 drop)
  generalize roundDiv numerator (denominator * pow2 drop) = significand at rounded ⊢
  rcases Nat.lt_or_ge significand (pow2 53) with small | large
  · refine pow2_excessBits_dvd (Nat.dvd_mul_left _ _) ?_
    rw [pow2_add]
    exact Nat.mul_lt_mul_of_pos_right small (pow2_pos drop)
  · have carry : significand = pow2 53 := by omega
    rw [carry, ← pow2_add]
    exact pow2_excessBits_dvd
      (pow2_dvd_pow2 (show drop + 1 ≤ 53 + drop by omega))
      (pow2_lt_pow2 (by omega))

namespace Magnitude

/-- The size zero. -/
def zero : Magnitude :=
  ⟨0, pow2_pos _, Nat.dvd_zero _⟩

/-- The size nearest to a quotient of units, or nothing when that is past the range. -/
def round? (numerator denominator : Nat) : Option Magnitude :=
  if bounded : roundUnits numerator denominator < unitsBound then
    some ⟨roundUnits numerator denominator,
      bounded, pow2_excessBits_dvd_roundUnits numerator denominator⟩
  else
    none

end Magnitude

end MiniLisp
