import Mathlib.Algebra.Order.Field.Rat
import Mathlib.Algebra.Order.Ring.Abs
import Mathlib.Data.Nat.Cast.Order.Field
import Mathlib.Tactic.FieldSimp
import Mathlib.Tactic.Linarith
import Mathlib.Tactic.Positivity
import Mathlib.Tactic.Ring
import MiniLisp.Double.Magnitude

namespace MiniLisp

/-!
# Rounding is to the nearest

A number of units is short if a significand of 53 bits can hold it.  Rounding a
quotient gives the nearest short number and, of two that are equally near, the
one with an even significand.

The argument is about grids.  Where the quotient has its leading bit, the short
numbers are the multiples of one power of two, the grid, and rounding takes the
nearest multiple; short numbers that are off the grid lie below the binade of the
quotient, further away than the point of the grid where the binade begins.

That a rounded quotient is past the finite range is then a matter of which side
of a midpoint it is on, between the largest size and the number after it.
-/

/-- A number of units that a significand of 53 bits can hold, however large it is. -/
def IsShort (units : Nat) : Prop :=
  pow2 (excessBits units) ∣ units

/-- The bits of a number of units that a significand holds. -/
def significand (units : Nat) : Nat :=
  units / pow2 (excessBits units)

/-- The short number of units that a rational number rounds to. -/
structure NearestUnits (x : ℚ) (units : Nat) : Prop where
  short : IsShort units
  nearest (other : Nat) (otherShort : IsShort other) : |x - units| ≤ |x - other|
  even
    (other : Nat)
    (otherShort : IsShort other)
    (different : other ≠ units)
    (tie : |x - units| = |x - other|) :
    Even (significand units)

section Bits

variable {units drop : Nat}

theorem cast_pow2 (exponent : Nat) : (pow2 exponent : ℚ) = 2 ^ exponent := by
  rw [show pow2 exponent = 2 ^ exponent from rfl, Nat.cast_pow, Nat.cast_ofNat]

theorem cast_pow2_pos (exponent : Nat) : (0 : ℚ) < pow2 exponent := by
  exact_mod_cast pow2_pos exponent

/-- A number below a power of two has no more excess bits than that leaves. -/
theorem excessBits_le
    (bounded : units < pow2 (53 + drop)) :
    excessBits units ≤ drop := by
  unfold excessBits
  by_cases zero : units = 0
  · rw [zero, Nat.log2_zero]
    omega
  · have bits := log2_lt_of_lt_pow2 zero bounded
    omega

/-- A number from a power of two on has at least the excess bits that this takes. -/
theorem le_excessBits
    (large : pow2 (52 + drop) ≤ units) :
    drop ≤ excessBits units := by
  unfold excessBits
  have nonzero : units ≠ 0 := Nat.ne_of_gt ((pow2_pos _).trans_le large)
  have bits : 52 + drop ≤ units.log2 := (Nat.le_log2 nonzero).mpr large
  omega

/-- Excess bits are counted from the leading bit. -/
theorem pow2_le_of_excessBits_ne_zero
    (excess : excessBits units ≠ 0) :
    pow2 (52 + excessBits units) ≤ units := by
  have nonzero : units ≠ 0 := by
    rintro rfl
    exact excess (by decide)
  have leading : 52 + excessBits units = units.log2 := by
    unfold excessBits at excess ⊢
    omega
  rw [leading]
  exact Nat.log2_self_le nonzero

theorem lt_pow2_excessBits
    (units : Nat) :
    units < pow2 (53 + excessBits units) := by
  refine (lt_pow2_log2 units).trans_le (pow2_le_pow2 ?_)
  unfold excessBits
  omega

/-- From a power of two on, short numbers are multiples of another one. -/
theorem IsShort.pow2_dvd
    (short : IsShort units)
    (large : pow2 (52 + drop) ≤ units) :
    pow2 drop ∣ units :=
  (pow2_dvd_pow2 (le_excessBits large)).trans short

theorem even_significand_iff
    (short : IsShort units) :
    Even (significand units) ↔ pow2 (excessBits units + 1) ∣ units := by
  have positive := pow2_pos (excessBits units)
  unfold IsShort at short
  rw [significand, pow2_add]
  generalize pow2 (excessBits units) = grid at short positive ⊢
  obtain ⟨held, rfl⟩ := short
  rw [Nat.mul_div_cancel_left held positive, even_iff_two_dvd]
  exact (Nat.mul_dvd_mul_iff_left positive).symm

/-- A number that is even on a grid has an even significand, if it is not past the grid. -/
theorem even_significand_of_dvd
    (short : IsShort units)
    (multiple : pow2 (drop + 1) ∣ units)
    (bounded : units < pow2 (53 + drop)) :
    Even (significand units) := by
  rw [even_significand_iff short]
  exact (pow2_dvd_pow2 (Nat.succ_le_succ (excessBits_le bounded))).trans multiple

end Bits

section WholeNumbers

variable {numerator denominator : Nat}

theorem cast_div_eq
    (positive : 0 < denominator) :
    (numerator : ℚ) / denominator =
      (numerator / denominator : Nat) + (numerator % denominator : Nat) / denominator := by
  have nonzero : (denominator : ℚ) ≠ 0 := by
    exact_mod_cast positive.ne'
  have parts : (numerator : ℚ) =
      denominator * (numerator / denominator : Nat) + (numerator % denominator : Nat) := by
    exact_mod_cast (Nat.div_add_mod numerator denominator).symm
  rw [eq_comm, ← sub_eq_zero]
  field_simp
  linarith

/-- The nearest whole number is at most a half away, and even if it is just a half away. -/
theorem roundDiv_close
    (numerator : Nat)
    (positive : 0 < denominator) :
    |(numerator : ℚ) / denominator - roundDiv numerator denominator| ≤ 1 / 2 ∧
      (|(numerator : ℚ) / denominator - roundDiv numerator denominator| = 1 / 2 →
        Even (roundDiv numerator denominator)) := by
  have divisor : (0 : ℚ) < denominator := by
    exact_mod_cast positive
  rw [cast_div_eq positive, roundDiv]
  have proper := Nat.mod_lt numerator positive
  generalize numerator / denominator = whole
  generalize numerator % denominator = rest at proper
  split
  · next down =>
      have small : 2 * (rest : ℚ) ≤ denominator := by
        exact_mod_cast (show 2 * rest ≤ denominator by omega)
      rw [add_sub_cancel_left, abs_of_nonneg (by positivity)]
      constructor
      · rw [div_le_iff₀ divisor]
        linarith
      · intro tie
        rw [div_eq_iff divisor.ne'] at tie
        have halves : 2 * rest = denominator := by
          exact_mod_cast (show 2 * (rest : ℚ) = denominator by linarith)
        exact Nat.even_iff.mpr (by omega)
  · next up =>
      have large : (denominator : ℚ) ≤ 2 * rest := by
        exact_mod_cast (show denominator ≤ 2 * rest by omega)
      have below : (rest : ℚ) / denominator ≤ 1 := by
        rw [div_le_one divisor]
        exact_mod_cast proper.le
      have short : (whole : ℚ) + rest / denominator - (whole + 1 : Nat) =
          -(1 - rest / denominator) := by
        push_cast
        ring
      rw [short, abs_neg, abs_of_nonneg (by linarith)]
      constructor
      · have half : 1 / 2 ≤ (rest : ℚ) / denominator := by
          rw [le_div_iff₀ divisor]
          linarith
        linarith
      · intro tie
        have half : (rest : ℚ) / denominator = 1 / 2 := by
          linarith
        rw [div_eq_iff divisor.ne'] at half
        have halves : 2 * rest = denominator := by
          exact_mod_cast (show 2 * (rest : ℚ) = denominator by linarith)
        exact Nat.even_iff.mpr (by omega)

/-- No whole number is nearer to a number than one at most a half away. -/
theorem nearest_of_close
    {x : ℚ}
    {whole : Nat}
    (close : |x - whole| ≤ 1 / 2)
    (other : Nat) :
    |x - whole| ≤ |x - other| ∧
      (other ≠ whole → |x - whole| = |x - other| → |x - whole| = 1 / 2) := by
  by_cases same : other = whole
  · rw [same]
    exact ⟨le_rfl, fun different => absurd rfl different⟩
  · have apart : (1 : ℚ) ≤ |(whole : ℚ) - other| := by
      have wholeApart : (1 : ℤ) ≤ |(whole : ℤ) - other| :=
        Int.one_le_abs (sub_ne_zero.mpr (mod_cast Ne.symm same))
      exact_mod_cast wholeApart
    have triangle : |(whole : ℚ) - other| ≤ |x - whole| + |x - other| := by
      rw [abs_sub_comm x whole]
      exact abs_sub_le _ x _
    exact ⟨by linarith, fun _ tie => by linarith⟩

end WholeNumbers

section Grid

variable {numerator denominator : Nat}

/--
A rounded quotient is the nearest point of the grid that its excess bits give and,
if another one is equally near, an even point.
-/
theorem roundUnits_nearest_on_grid
    (positive : 0 < denominator)
    {other : Nat}
    (onGrid : pow2 (excessBits (numerator / denominator)) ∣ other) :
    |(numerator : ℚ) / denominator - roundUnits numerator denominator| ≤
        |(numerator : ℚ) / denominator - other| ∧
      (other ≠ roundUnits numerator denominator →
        |(numerator : ℚ) / denominator - roundUnits numerator denominator| =
            |(numerator : ℚ) / denominator - other| →
          pow2 (excessBits (numerator / denominator) + 1) ∣ roundUnits numerator denominator) := by
  unfold roundUnits
  dsimp only
  generalize chosen : excessBits (numerator / denominator) = drop at onGrid ⊢
  obtain ⟨point, rfl⟩ := onGrid
  have gridPositive := cast_pow2_pos drop
  have scaledPositive : 0 < denominator * pow2 drop := Nat.mul_pos positive (pow2_pos drop)
  obtain ⟨close, evenOnHalf⟩ := roundDiv_close numerator scaledPositive
  generalize roundDiv numerator (denominator * pow2 drop) = rounded at close evenOnHalf ⊢
  -- On the grid distances are those of whole numbers, scaled.
  have scaled (whole : Nat) :
      |(numerator : ℚ) / denominator - (whole * pow2 drop : Nat)| =
        |(numerator : ℚ) / (denominator * pow2 drop : Nat) - whole| * pow2 drop := by
    have nonzero : (denominator : ℚ) ≠ 0 := by
      exact_mod_cast positive.ne'
    have factored :
        (numerator : ℚ) / denominator - (whole * pow2 drop : Nat) =
          ((numerator : ℚ) / (denominator * pow2 drop : Nat) - whole) * pow2 drop := by
      push_cast
      field_simp
    rw [factored, abs_mul, abs_of_pos gridPositive]
  obtain ⟨nearest, halfOnTie⟩ := nearest_of_close close point
  rw [Nat.mul_comm (pow2 drop) point, scaled, scaled]
  refine ⟨mul_le_mul_of_nonneg_right nearest gridPositive.le, fun different tie => ?_⟩
  have otherPoint : point ≠ rounded := by
    rintro rfl
    exact different rfl
  have even := evenOnHalf (halfOnTie otherPoint (mul_right_cancel₀ gridPositive.ne' tie))
  rw [Nat.add_comm, pow2_add]
  exact Nat.mul_dvd_mul_right (even_iff_two_dvd.mp even) _

/-- A short number that is off the grid is further away than the nearest point of the grid. -/
theorem roundUnits_nearer_than_off_grid
    (positive : 0 < denominator)
    {other : Nat}
    (short : IsShort other)
    (offGrid : ¬pow2 (excessBits (numerator / denominator)) ∣ other) :
    |(numerator : ℚ) / denominator - roundUnits numerator denominator| <
      |(numerator : ℚ) / denominator - other| := by
  have excess : excessBits (numerator / denominator) ≠ 0 := by
    intro none
    rw [none] at offGrid
    exact offGrid (Nat.one_dvd other)
  have binade := pow2_le_of_excessBits_ne_zero excess
  have onGrid :
      pow2 (excessBits (numerator / denominator)) ∣
        pow2 (52 + excessBits (numerator / denominator)) :=
    pow2_dvd_pow2 (Nat.le_add_left _ _)
  have nearest := (roundUnits_nearest_on_grid positive onGrid).1
  have under : other < pow2 (52 + excessBits (numerator / denominator)) := by
    by_contra notUnder
    exact offGrid (short.pow2_dvd (Nat.le_of_not_lt notUnder))
  have start : (pow2 (52 + excessBits (numerator / denominator)) : ℚ) ≤ numerator / denominator :=
    (Nat.cast_le.mpr binade).trans Nat.cast_div_le
  have before : (other : ℚ) < pow2 (52 + excessBits (numerator / denominator)) := by
    exact_mod_cast under
  rw [abs_of_nonneg (sub_nonneg.mpr start)] at nearest
  rw [abs_of_nonneg (show 0 ≤ (numerator : ℚ) / denominator - other by linarith)]
  linarith

/-- Rounding can lead to the next binade, but only to its beginning. -/
theorem roundUnits_le
    (numerator denominator : Nat) :
    roundUnits numerator denominator ≤ pow2 (53 + excessBits (numerator / denominator)) := by
  have below := lt_pow2_excessBits (numerator / denominator)
  unfold roundUnits
  dsimp only
  generalize excessBits (numerator / denominator) = drop at below ⊢
  have quotient : numerator / (denominator * pow2 drop) < pow2 53 := by
    rw [← Nat.div_div_eq_div_mul]
    refine Nat.div_lt_of_lt_mul ?_
    rwa [← pow2_add, Nat.add_comm]
  have rounded := roundDiv_le numerator (denominator * pow2 drop)
  rw [pow2_add]
  exact Nat.mul_le_mul_right _ (rounded.trans quotient)

/-- Rounding gives the nearest short number, and of two the one with an even significand. -/
theorem roundUnits_nearest
    (positive : 0 < denominator) :
    NearestUnits ((numerator : ℚ) / denominator) (roundUnits numerator denominator) where
  short := pow2_excessBits_dvd_roundUnits numerator denominator
  nearest other otherShort := by
    by_cases onGrid : pow2 (excessBits (numerator / denominator)) ∣ other
    · exact (roundUnits_nearest_on_grid positive onGrid).1
    · exact (roundUnits_nearer_than_off_grid positive otherShort onGrid).le
  even other otherShort different tie := by
    have onGrid : pow2 (excessBits (numerator / denominator)) ∣ other := by
      by_contra offGrid
      exact (roundUnits_nearer_than_off_grid positive otherShort offGrid).ne tie
    have evenPoint := (roundUnits_nearest_on_grid positive onGrid).2 different tie
    have short := pow2_excessBits_dvd_roundUnits numerator denominator
    rcases (roundUnits_le numerator denominator).lt_or_eq with inside | next
    · exact even_significand_of_dvd short evenPoint inside
    · have nextBinade :
          pow2 (excessBits (numerator / denominator) + 1 + 1) ∣ roundUnits numerator denominator := by
        rw [next]
        exact pow2_dvd_pow2 (by omega)
      refine even_significand_of_dvd short nextBinade ?_
      rw [next]
      exact pow2_lt_pow2 (by omega)

end Grid

section Range

variable {x : ℚ} {units grid : Nat}

/-- The largest short number below a power of two. -/
def lastBefore (grid : Nat) : Nat :=
  (pow2 53 - 1) * pow2 grid

theorem lastBefore_add (grid : Nat) : lastBefore grid + pow2 grid = pow2 (53 + grid) := by
  rw [lastBefore, pow2_add, Nat.sub_mul, Nat.one_mul]
  exact Nat.sub_add_cancel (Nat.le_mul_of_pos_left _ (pow2_pos 53))

theorem isShort_lastBefore (grid : Nat) : IsShort (lastBefore grid) := by
  refine pow2_excessBits_dvd (Nat.dvd_mul_left _ _) ?_
  rw [← lastBefore_add]
  exact Nat.lt_add_of_pos_right (pow2_pos grid)

theorem isShort_pow2 (grid : Nat) : IsShort (pow2 (53 + grid)) :=
  pow2_excessBits_dvd
    (pow2_dvd_pow2 (show grid + 1 ≤ 53 + grid by omega))
    (pow2_lt_pow2 (by omega))

theorem pow2_le_lastBefore (grid : Nat) : pow2 (52 + grid) ≤ lastBefore grid := by
  rw [pow2_add, lastBefore]
  exact Nat.mul_le_mul_right _ (by decide)

/-- Its significand is all ones. -/
theorem not_even_significand_lastBefore (grid : Nat) :
    ¬Even (significand (lastBefore grid)) := by
  have bounded : lastBefore grid < pow2 (53 + grid) := by
    rw [← lastBefore_add]
    exact Nat.lt_add_of_pos_right (pow2_pos grid)
  have excess : excessBits (lastBefore grid) = grid :=
    le_antisymm (excessBits_le bounded) (le_excessBits (pow2_le_lastBefore grid))
  rw [even_significand_iff (isShort_lastBefore grid), excess, Nat.add_comm, pow2_add, lastBefore,
    Nat.mul_dvd_mul_iff_right (pow2_pos grid)]
  decide

theorem IsShort.le_lastBefore
    (short : IsShort units)
    (below : units < pow2 (53 + grid)) :
    units ≤ lastBefore grid := by
  by_cases large : pow2 (52 + grid) ≤ units
  · obtain ⟨point, rfl⟩ := short.pow2_dvd large
    rw [Nat.add_comm, pow2_add, Nat.mul_lt_mul_left (pow2_pos grid)] at below
    rw [lastBefore, Nat.mul_comm]
    exact Nat.mul_le_mul_right _ (Nat.le_sub_one_of_lt below)
  · exact (Nat.le_of_not_le large).trans (pow2_le_lastBefore grid)

/-- A number rounds past the last short number just if it is no less than the midpoint after it. -/
theorem NearestUnits.pow2_le_iff
    (rounded : NearestUnits x units)
    (grid : Nat) :
    pow2 (53 + grid) ≤ units ↔ (pow2 (53 + grid) : ℚ) - pow2 grid / 2 ≤ x := by
  have positive := cast_pow2_pos grid
  have last : (lastBefore grid : ℚ) + pow2 grid = pow2 (53 + grid) := by
    exact_mod_cast lastBefore_add grid
  constructor
  · intro past
    by_contra below
    have pastCast : (pow2 (53 + grid) : ℚ) ≤ units := by
      exact_mod_cast past
    have nearest := rounded.nearest _ (isShort_lastBefore grid)
    rw [abs_of_nonpos (show x - units ≤ 0 by linarith)] at nearest
    rcases abs_cases (x - lastBefore grid) with ⟨same, -⟩ | ⟨same, -⟩
    · linarith
    · linarith
  · intro above
    by_contra notPast
    have inside := rounded.short.le_lastBefore (Nat.lt_of_not_le notPast)
    have insideCast : (units : ℚ) ≤ lastBefore grid := by
      exact_mod_cast inside
    have nearest := rounded.nearest _ (isShort_pow2 grid)
    have distance : |x - units| = x - units := abs_of_nonneg (by linarith)
    rcases abs_cases (x - pow2 (53 + grid)) with ⟨same, -⟩ | ⟨same, -⟩
    · linarith
    · -- Only the last short number is as near as the power of two, and it is odd.
      have isLast : units = lastBefore grid := by
        exact_mod_cast (show (units : ℚ) = lastBefore grid by linarith)
      have tie : |x - units| = |x - pow2 (53 + grid)| := by
        linarith
      have different : pow2 (53 + grid) ≠ units := fun equal => notPast equal.le
      have even := rounded.even _ (isShort_pow2 grid) different tie
      rw [isLast] at even
      exact not_even_significand_lastBefore grid even

end Range

end MiniLisp
