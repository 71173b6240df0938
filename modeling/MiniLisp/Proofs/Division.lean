import Mathlib.Algebra.Order.Field.Power
import MiniLisp.Proofs.Faults
import MiniLisp.Proofs.Rounding

namespace MiniLisp

/-!
# Division rounds once

The quotient of two integers is computed exactly and rounded once, however large
the integers are: to the nearest double, with an even significand if two are
equally near, and to nothing from the midpoint after the largest double on.

What the finite doubles are is said on rational numbers, by a significand and an
exponent; the least exponent allows short significands, so that small quotients
lose bits one by one before they become zero.

Division looks at its divisors before it divides, so a zero among them is what it
stops with, whatever the numbers before would come to.
-/

/--
A rational number that is a finite double, with its significand and its exponent:
the significand has 53 bits, or fewer if the exponent is the least one.
-/
structure IsBinary64 (y : ℚ) (m e : ℤ) : Prop where
  value : y = m * 2 ^ e
  short : |m| < 2 ^ 53
  least : -1074 ≤ e
  greatest : e ≤ 971
  normal : e = -1074 ∨ 2 ^ 52 ≤ |m|

/-- The finite double that a rational number rounds to, with its significand and its exponent. -/
structure RoundsTo (x y : ℚ) (m e : ℤ) : Prop where
  double : IsBinary64 y m e
  nearest (z : ℚ) (n f : ℤ) (other : IsBinary64 z n f) : |x - y| ≤ |x - z|
  even
    (z : ℚ) (n f : ℤ)
    (other : IsBinary64 z n f)
    (different : z ≠ y)
    (tie : |x - y| = |x - z|) :
    Even m

namespace Double

/-- A sign as a factor. -/
def sign (negative : Bool) : ℤ :=
  if negative then -1 else 1

/-- The rational number that a finite double is. -/
def value (negative : Bool) (size : Magnitude) : ℚ :=
  signedUnits negative size / unitsPerOne

theorem abs_sign (negative : Bool) : |sign negative| = 1 := by
  cases negative <;> rfl

theorem abs_cast_sign (negative : Bool) : |(sign negative : ℚ)| = 1 := by
  exact_mod_cast abs_sign negative

theorem cast_sign_bne
    (left right : Bool) :
    (sign (left != right) : ℚ) = sign left / sign right := by
  cases left <;> cases right <;> norm_num [sign]

theorem cast_eq_sign_mul_abs
    (n : ℤ) :
    (n : ℚ) = sign (decide (n < 0)) * |(n : ℚ)| := by
  rcases lt_or_ge n 0 with negative | nonnegative
  · have cast : (n : ℚ) < 0 := by
      exact_mod_cast negative
    simp [sign, negative, abs_of_neg cast]
  · have cast : (0 : ℚ) ≤ n := by
      exact_mod_cast nonnegative
    simp [sign, not_lt.mpr nonnegative, abs_of_nonneg cast]

theorem value_eq
    (negative : Bool)
    (size : Magnitude) :
    value negative size = sign negative * (size.units / unitsPerOne) := by
  have units : (signedUnits negative size : ℚ) = sign negative * size.units := by
    cases negative with
    | false =>
        simp [signedUnits, sign]
    | true =>
        simp [signedUnits, sign]
  rw [value, units, mul_div_assoc]

theorem cast_unitsPerOne_pos : (0 : ℚ) < unitsPerOne :=
  cast_pow2_pos 1074

/-- A finite double without its sign is its number of units. -/
theorem abs_value_mul_unitsPerOne
    (negative : Bool)
    (size : Magnitude) :
    |value negative size| * unitsPerOne = size.units := by
  have nonnegative : (0 : ℚ) ≤ size.units / unitsPerOne :=
    div_nonneg (Nat.cast_nonneg _) cast_unitsPerOne_pos.le
  rw [value_eq, abs_mul, abs_cast_sign, one_mul, abs_of_nonneg nonnegative,
    div_mul_cancel₀ _ cast_unitsPerOne_pos.ne']

/-- A number of units over one is a significand times a power of two. -/
theorem cast_div_unitsPerOne
    {units : Nat}
    (short : IsShort units) :
    (units : ℚ) / unitsPerOne = significand units * 2 ^ ((excessBits units : ℤ) - 1074) := by
  have whole : (units : ℚ) = significand units * 2 ^ (excessBits units) := by
    rw [← cast_pow2]
    exact_mod_cast (Nat.div_mul_cancel short).symm
  rw [zpow_sub₀ two_ne_zero, zpow_natCast, ← mul_div_assoc, ← whole, unitsPerOne, cast_pow2]
  norm_cast

theorem significand_lt
    (units : Nat) :
    significand units < pow2 53 := by
  refine Nat.div_lt_of_lt_mul ?_
  rw [← pow2_add, Nat.add_comm]
  exact lt_pow2_excessBits units

/-- The leading bit of a significand is set, unless nothing of the number is left out of it. -/
theorem le_significand
    {units : Nat}
    (excess : excessBits units ≠ 0) :
    pow2 52 ≤ significand units := by
  rw [significand, Nat.le_div_iff_mul_le (pow2_pos _), ← pow2_add]
  exact pow2_le_of_excessBits_ne_zero excess

/-- A finite double is its significand times a power of two. -/
theorem isBinary64_value
    (negative : Bool)
    (size : Magnitude) :
    IsBinary64
      (value negative size)
      (sign negative * significand size.units)
      ((excessBits size.units : ℤ) - 1074) where
  value := by
    rw [value_eq, cast_div_unitsPerOne size.representable.2]
    push_cast
    ring
  short := by
    rw [abs_mul, abs_sign, one_mul, Nat.abs_cast]
    exact_mod_cast significand_lt size.units
  least := by
    omega
  greatest := by
    have bounded : excessBits size.units ≤ 2045 := excessBits_le size.representable.1
    omega
  normal := by
    rw [abs_mul, abs_sign, one_mul, Nat.abs_cast]
    by_cases excess : excessBits size.units = 0
    · left
      rw [excess]
      rfl
    · right
      exact_mod_cast le_significand excess

end Double

/-- The size of a finite double is a short number of units. -/
theorem IsBinary64.exists_units
    {y : ℚ}
    {m e : ℤ}
    (double : IsBinary64 y m e) :
    ∃ units, IsShort units ∧ |y| * unitsPerOne = units := by
  have least := double.least
  obtain ⟨drop, exponent⟩ : ∃ drop : Nat, e + 1074 = drop :=
    Int.eq_ofNat_of_zero_le (by omega)
  have few : m.natAbs < pow2 53 := by
    have short := double.short
    rw [Int.abs_eq_natAbs] at short
    exact_mod_cast short
  refine ⟨m.natAbs * pow2 drop, pow2_excessBits_dvd (Nat.dvd_mul_left _ _) ?_, ?_⟩
  · rw [pow2_add]
    exact Nat.mul_lt_mul_of_pos_right few (pow2_pos drop)
  · have positive : (0 : ℚ) < 2 ^ e := zpow_pos two_pos e
    have power : (2 : ℚ) ^ e * 2 ^ 1074 = 2 ^ drop := by
      rw [← zpow_natCast, ← zpow_natCast, ← zpow_add₀ two_ne_zero, ← exponent]
      rfl
    rw [double.value, abs_mul, abs_of_pos positive, unitsPerOne, cast_pow2, mul_assoc, power,
      Nat.cast_mul, cast_pow2, Nat.cast_natAbs, Int.cast_abs]

section Signed

variable {x : ℚ} {negative : Bool} {size : Magnitude}

/-- With the same sign, two numbers are as far apart as their sizes. -/
theorem abs_sub_value
    (sameSign : x = Double.sign negative * |x|) :
    |x - Double.value negative size| * unitsPerOne = |(|x| * unitsPerOne) - size.units| := by
  have positive := Double.cast_unitsPerOne_pos
  have factored :
      (x - Double.value negative size) * unitsPerOne =
        Double.sign negative * (|x| * unitsPerOne - size.units) := by
    rw [sub_mul, Double.value_eq, mul_assoc, div_mul_cancel₀ _ positive.ne', mul_sub, ← mul_assoc,
      ← sameSign]
  rw [← abs_of_pos positive, ← abs_mul, abs_of_pos positive, factored, abs_mul,
    Double.abs_cast_sign, one_mul]

/-- Whatever their signs, two numbers are at least as far apart as their sizes. -/
theorem abs_sub_sizes_le
    (x z : ℚ) :
    |(|x| * unitsPerOne) - |z| * unitsPerOne| ≤ |x - z| * unitsPerOne := by
  have positive := Double.cast_unitsPerOne_pos
  rw [← sub_mul, abs_mul, abs_of_pos positive]
  exact mul_le_mul_of_nonneg_right (abs_abs_sub_abs_le x z) positive.le

theorem isShort_zero : IsShort 0 :=
  Nat.dvd_zero _

/-- A number that is as near to one of its size as to the opposite one rounds to zero. -/
theorem value_eq_zero_of_opposite
    (rounded : NearestUnits (|x| * unitsPerOne) size.units)
    (tie : |x - Double.value negative size| = |x - -Double.value negative size|) :
    Double.value negative size = 0 := by
  rcases abs_eq_abs.mp tie with same | opposite
  · linarith
  · have origin : x = 0 := by
      linarith
    have nearest := rounded.nearest 0 isShort_zero
    rw [origin, abs_zero, zero_mul, Nat.cast_zero, sub_zero, abs_zero, zero_sub, abs_neg,
      Nat.abs_cast] at nearest
    have none : (size.units : ℚ) = 0 := le_antisymm nearest (Nat.cast_nonneg _)
    rw [Double.value_eq, none, zero_div, mul_zero]

/-- Rounding the size of a number and keeping its sign rounds the number. -/
theorem roundsTo_of_nearestUnits
    (sameSign : x = Double.sign negative * |x|)
    (rounded : NearestUnits (|x| * unitsPerOne) size.units) :
    RoundsTo x
      (Double.value negative size)
      (Double.sign negative * significand size.units)
      ((excessBits size.units : ℤ) - 1074) where
  double := Double.isBinary64_value negative size
  nearest z n f other := by
    obtain ⟨units, short, sameSize⟩ := other.exists_units
    refine le_of_mul_le_mul_right ?_ Double.cast_unitsPerOne_pos
    calc |x - Double.value negative size| * unitsPerOne
        = |(|x| * unitsPerOne) - size.units| := abs_sub_value sameSign
      _ ≤ |(|x| * unitsPerOne) - units| := rounded.nearest units short
      _ = |(|x| * unitsPerOne) - |z| * unitsPerOne| := by rw [sameSize]
      _ ≤ |x - z| * unitsPerOne := abs_sub_sizes_le x z
  even z n f other different tie := by
    obtain ⟨units, short, sameSize⟩ := other.exists_units
    have further : |(|x| * unitsPerOne) - units| ≤ |(|x| * unitsPerOne) - size.units| := by
      rw [← sameSize, ← abs_sub_value sameSign, tie]
      exact abs_sub_sizes_le x z
    have otherUnits : units ≠ size.units := by
      rintro rfl
      -- Of the same size and not the same, the other double is the opposite one.
      have sizes : |z| = |Double.value negative size| := by
        refine mul_right_cancel₀ Double.cast_unitsPerOne_pos.ne' ?_
        rw [sameSize, Double.abs_value_mul_unitsPerOne]
      rcases abs_eq_abs.mp sizes with same | opposite
      · exact different same
      · rw [opposite] at tie different
        rw [value_eq_zero_of_opposite rounded tie] at different
        exact different neg_zero
    have evenSignificand :=
      rounded.even units short otherUnits (le_antisymm (rounded.nearest units short) further)
    exact ((Int.even_coe_nat _).mpr evenSignificand).mul_left _

end Signed

section Quotients

variable {a b : ℤ}

theorem abs_quotient_mul_unitsPerOne
    (a b : ℤ) :
    |(a : ℚ) / b| * unitsPerOne = (a.natAbs * unitsPerOne : Nat) / b.natAbs := by
  rw [abs_div, Nat.cast_mul, Nat.cast_natAbs, Nat.cast_natAbs, Int.cast_abs, Int.cast_abs,
    div_mul_eq_mul_div]

/-- A quotient is negative if just one of its parts is. -/
theorem quotient_sign
    (a b : ℤ) :
    (a : ℚ) / b = Double.sign (decide (a < 0) != decide (b < 0)) * |(a : ℚ) / b| := by
  calc (a : ℚ) / b
      = Double.sign (decide (a < 0)) * |(a : ℚ)| / (Double.sign (decide (b < 0)) * |(b : ℚ)|) :=
        congrArg₂ (· / ·) (Double.cast_eq_sign_mul_abs a) (Double.cast_eq_sign_mul_abs b)
    _ = Double.sign (decide (a < 0)) / Double.sign (decide (b < 0)) * (|(a : ℚ)| / |(b : ℚ)|) :=
        mul_div_mul_comm _ _ _ _
    _ = Double.sign (decide (a < 0) != decide (b < 0)) * |(a : ℚ) / b| := by
        rw [Double.cast_sign_bne, abs_div]

/-- The quotient in units is rounded to the nearest short number. -/
theorem nearestUnits_quotient
    (a : ℤ)
    (nonzero : b ≠ 0) :
    NearestUnits
      (|(a : ℚ) / b| * unitsPerOne)
      (roundUnits (a.natAbs * unitsPerOne) b.natAbs) := by
  rw [abs_quotient_mul_unitsPerOne]
  exact roundUnits_nearest (Int.natAbs_pos.mpr nonzero)

/-- The midpoint after the largest double, in units. -/
theorem midpoint_eq :
    (pow2 (53 + 2045) : ℚ) - pow2 2045 / 2 = (2 ^ 1024 - 2 ^ 970) * unitsPerOne := by
  have bound : pow2 (53 + 2045) = pow2 1024 * unitsPerOne := by
    rw [show 53 + 2045 = 1024 + 1074 from rfl, pow2_add, unitsPerOne]
  have half : pow2 2045 = pow2 970 * unitsPerOne * pow2 1 := by
    rw [show 2045 = 970 + 1074 + 1 from rfl, pow2_add, pow2_add, unitsPerOne]
  rw [bound, half, Nat.cast_mul, Nat.cast_mul, Nat.cast_mul, cast_pow2 1024, cast_pow2 970,
    cast_pow2 1]
  generalize (2 : ℚ) ^ 1024 = large
  generalize (2 : ℚ) ^ 970 = small
  ring

/-- A quotient rounds to nothing just from the midpoint after the largest double on. -/
theorem ofQuotient?_eq_none_iff
    (a : ℤ)
    (nonzero : b ≠ 0) :
    Double.ofQuotient? a b = none ↔ (2 ^ 1024 - 2 ^ 970) * |b| ≤ |a| := by
  have positive := Double.cast_unitsPerOne_pos
  have divisor : (0 : ℚ) < |(b : ℚ)| := abs_pos.mpr (by exact_mod_cast nonzero)
  have past :
      Double.ofQuotient? a b = none ↔
        pow2 (53 + 2045) ≤ roundUnits (a.natAbs * unitsPerOne) b.natAbs := by
    rw [Double.ofQuotient?, Option.map_eq_none_iff, Magnitude.round?]
    split
    · next bounded =>
        exact ⟨nofun, fun unbounded => absurd bounded (Nat.not_lt.mpr unbounded)⟩
    · next unbounded =>
        exact ⟨fun _ => Nat.le_of_not_lt unbounded, fun _ => rfl⟩
  rw [past, (nearestUnits_quotient a nonzero).pow2_le_iff 2045, midpoint_eq,
    mul_le_mul_iff_left₀ positive, abs_div, le_div_iff₀ divisor]
  exact_mod_cast Iff.rfl

/-- Any other quotient is rounded once. -/
theorem exists_ofQuotient?
    (nonzero : b ≠ 0)
    (inRange : |a| < (2 ^ 1024 - 2 ^ 970) * |b|) :
    ∃ size m e,
      Double.ofQuotient? a b = some (.finite (decide (a < 0) != decide (b < 0)) size) ∧
        RoundsTo
          ((a : ℚ) / b)
          (Double.value (decide (a < 0) != decide (b < 0)) size) m e := by
  have rounded := nearestUnits_quotient a nonzero
  have found := mt (ofQuotient?_eq_none_iff a nonzero).mp (not_le.mpr inRange)
  rw [Double.ofQuotient?, Option.map_eq_none_iff, Magnitude.round?] at found
  rw [Double.ofQuotient?, Magnitude.round?]
  split at found
  · next bounded =>
      rw [dif_pos bounded]
      exact ⟨_, _, _, rfl, roundsTo_of_nearestUnits (quotient_sign a b) rounded⟩
  · exact absurd rfl found

end Quotients

section Operands

variable {limit : Nat} {args : List Datum} {env next : Env} {numbers : List Number}

theorem demandNumbers_map_number
    (op : Word)
    (numbers : List Number) :
    demandNumbers op (numbers.map .number) = .ok numbers := by
  have found : (numbers.map Datum.number).mapM Datum.number? = some numbers := by
    induction numbers with
    | nil =>
        rfl
    | cons number rest inductionHypothesis =>
        rw [List.map_cons, List.mapM_cons, inductionHypothesis]
        rfl
  rw [demandNumbers, found]

/-- An arithmetic form with numbers for operands comes to what the operation makes of them. -/
theorem evaluate_arithmetic
    (op : Arithmetic)
    (operands : evaluateArgs (evaluate limit) args env = .ok (numbers.map .number, next)) :
    evaluate (limit + 1) (.list (.word (.arithmetic op) :: args)) env =
      (liftEval (applyArithmetic op numbers)).map fun value => (.number value, next) := by
  rw [evaluate, evaluateStep, evaluateForm, operands]
  simp only [bind, Except.bind, demandNumbers_map_number]
  change (liftEval (applyArithmetic op numbers)).bind _ = _
  cases applyArithmetic op numbers with
  | error error =>
      rfl
  | ok value =>
      rfl

theorem map_liftEval_eq_error_iff
    {α β : Type}
    {outcome : Except EvalError α}
    {f : α → β}
    {error : EvalError} :
    (liftEval outcome).map f = .error (.eval error) ↔ outcome = .error error := by
  cases outcome with
  | error other =>
      simp [liftEval, failWith, Except.map]
  | ok value =>
      simp [liftEval, Except.map]

theorem inRange_ne_divisionByZero
    (op : Arithmetic)
    (result : Option Number) :
    inRange op result ≠ .error .divisionByZero := by
  cases result with
  | none =>
      simp [inRange]
  | some value =>
      simp [inRange]

/-- Zero is the integer, or one of the two doubles that differ in their sign only. -/
theorem Number.isZero_iff
    {number : Number} :
    number.isZero = true ↔
      number = .int 0 ∨ ∃ negative, number = .float (.zero negative) := by
  constructor
  · intro zero
    cases number with
    | int n =>
        exact .inl (congrArg Number.int (beq_iff_eq.mp zero))
    | float x =>
        cases x with
        | nan =>
            cases zero
        | inf negative =>
            cases zero
        | finite negative size =>
            obtain ⟨units, representable⟩ := size
            obtain rfl : units = 0 := beq_iff_eq.mp zero
            exact .inr ⟨negative, rfl⟩
  · rintro (rfl | ⟨negative, rfl⟩)
    · rfl
    · rfl

/-- A zero divisor is found before anything is divided. -/
theorem applyArithmetic_div_eq_divisionByZero_iff
    (two : 2 ≤ numbers.length) :
    applyArithmetic .div numbers = .error .divisionByZero ↔
      ∃ divisor ∈ numbers.tail, divisor.isZero = true := by
  have run := applyArithmetic_run .div numbers
  generalize applyArithmetic .div numbers = outcome at run ⊢
  cases run with
  | miscounted misfit =>
      exact absurd two (of_decide_eq_false misfit)
  | zeroDivisor _ member zero =>
      exact iff_of_true rfl ⟨_, member, zero⟩
  | negated minus =>
      cases minus
  | combined operands _ divisors =>
      refine iff_of_false (inRange_ne_divisionByZero _ _) ?_
      rintro ⟨divisor, member, zero⟩
      rw [show numbers = _ :: _ from operands] at member
      exact Bool.false_ne_true ((divisors rfl divisor member).symm.trans zero)

/-- Two integers are divided in one step. -/
theorem applyArithmetic_div_int
    {a b : ℤ}
    (nonzero : b ≠ 0) :
    applyArithmetic .div [.int a, .int b] = inRange .div ((Double.ofQuotient? a b).map .float) := by
  simp [applyArithmetic, Number.isZero, nonzero, foldNumbers?, Number.div?]

end Operands

/--
Division of two integers fails just from the midpoint after the largest double on,
and otherwise rounds the exact quotient once, with a negative result, be it zero,
if just one of the integers is negative.  Division of any numbers stops at a zero
divisor before it divides, also where a quotient would be past the range.
-/
theorem division_rounds_once
    (limit : Nat)
    (args : List Datum)
    (env next : Env)
    (numbers : List Number)
    (outcome : Except Fault (Datum × Env))
    (operands : evaluateArgs (evaluate limit) args env = .ok (numbers.map .number, next))
    (run : evaluate (limit + 1) (.list (.word (.arithmetic .div) :: args)) env = outcome) :
    (EvalError.wrongType (.tooLarge .div)).message = "/: result too large for a float" ∧
    (∀ a b : ℤ, numbers = [.int a, .int b] → b ≠ 0 →
      (outcome = .error (.eval (.wrongType (.tooLarge .div))) ↔
        (2 ^ 1024 - 2 ^ 970) * |b| ≤ |a|) ∧
      (|a| < (2 ^ 1024 - 2 ^ 970) * |b| →
        ∃ negative size m e,
          outcome = .ok (.number (.float (.finite negative size)), next) ∧
          RoundsTo ((a : ℚ) / b) (Double.value negative size) m e ∧
          (negative = true ↔ Xor (a < 0) (b < 0)))) ∧
    (2 ≤ numbers.length →
      (outcome = .error (.eval .divisionByZero) ↔
        ∃ divisor ∈ numbers.tail,
          divisor = .int 0 ∨ ∃ negative, divisor = .float (.zero negative))) := by
  rw [evaluate_arithmetic .div operands] at run
  subst run
  refine ⟨rfl, ?_, ?_⟩
  · rintro a b rfl nonzero
    rw [applyArithmetic_div_int nonzero]
    constructor
    · rw [map_liftEval_eq_error_iff, ← ofQuotient?_eq_none_iff a nonzero]
      cases Double.ofQuotient? a b with
      | none =>
          exact iff_of_true rfl rfl
      | some x =>
          exact iff_of_false nofun nofun
    · intro inRange
      obtain ⟨size, m, e, found, rounds⟩ := exists_ofQuotient? nonzero inRange
      rw [found]
      refine ⟨_, size, m, e, rfl, rounds, ?_⟩
      rw [bne_iff_ne, ne_eq, decide_eq_decide, xor_iff_not_iff]
  · intro two
    rw [map_liftEval_eq_error_iff, applyArithmetic_div_eq_divisionByZero_iff two]
    simp only [Number.isZero_iff]

/--
The midpoint itself is past the range, for a negative divisor too; zero over a
negative integer is negative; and a divisor that is the negative zero counts more
than a quotient before it that is past the range.
-/
theorem division_rounds_once_midpoint :
    (evaluate 2
        (.list [.word (.arithmetic .div),
          .number (.int (2 ^ 1024 - 2 ^ 970)), .number (.int (-1))]) (.ofList []) =
      .error (.eval (.wrongType (.tooLarge .div)))) ∧
    (∃ size m e,
      evaluate 2
          (.list [.word (.arithmetic .div), .number (.int 0), .number (.int (-3))]) (.ofList []) =
        .ok (.number (.float (.finite true size)), .ofList []) ∧
      RoundsTo (((0 : ℤ) : ℚ) / (-3 : ℤ)) (Double.value true size) m e) ∧
    (evaluate 2
        (.list [.word (.arithmetic .div),
          .number (.int (2 ^ 1024 - 2 ^ 970)), .number (.int (-1)), .number (.float (.zero true))])
        (.ofList []) =
      .error (.eval .divisionByZero)) := by
  have positive : (0 : ℤ) < 2 ^ 1024 - 2 ^ 970 :=
    sub_pos.mpr (pow_lt_pow_right₀ (by decide) (by decide))
  refine ⟨?_, ?_, ?_⟩
  · obtain ⟨-, integers, -⟩ :=
      division_rounds_once 1 [.number (.int (2 ^ 1024 - 2 ^ 970)), .number (.int (-1))]
        (.ofList []) (.ofList []) [.int (2 ^ 1024 - 2 ^ 970), .int (-1)] _ rfl rfl
    refine (integers _ _ rfl (by decide)).1.mpr ?_
    rw [abs_neg, abs_one, mul_one]
    exact le_abs_self _
  · obtain ⟨-, integers, -⟩ :=
      division_rounds_once 1 [.number (.int 0), .number (.int (-3))]
        (.ofList []) (.ofList []) [.int 0, .int (-3)] _ rfl rfl
    have inRange : |(0 : ℤ)| < (2 ^ 1024 - 2 ^ 970) * |-3| :=
      mul_pos positive (by decide)
    obtain ⟨negative, size, m, e, result, rounds, sign⟩ := (integers _ _ rfl (by decide)).2 inRange
    obtain rfl : negative = true := sign.mpr (.inr ⟨by decide, by decide⟩)
    exact ⟨size, m, e, result, rounds⟩
  · obtain ⟨-, -, zeros⟩ :=
      division_rounds_once 1
        [.number (.int (2 ^ 1024 - 2 ^ 970)), .number (.int (-1)), .number (.float (.zero true))]
        (.ofList []) (.ofList [])
        [.int (2 ^ 1024 - 2 ^ 970), .int (-1), .float (.zero true)] _ rfl rfl
    exact (zeros (by decide)).mpr ⟨.float (.zero true), .tail _ (.head _), .inr ⟨true, rfl⟩⟩

end MiniLisp
