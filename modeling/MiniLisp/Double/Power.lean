namespace MiniLisp

/-!
# Powers of two and ten

The powers that doubles and decimals are made of, with the laws that rounding
needs.
-/

/-- Two to a power. -/
def pow2 (exponent : Nat) : Nat :=
  Nat.pow 2 exponent

/-- Ten to a power. -/
def pow10 (exponent : Nat) : Nat :=
  Nat.pow 10 exponent

/-- Powers of two are positive. -/
theorem pow2_pos (exponent : Nat) : 0 < pow2 exponent :=
  Nat.two_pow_pos exponent

/-- A sum of exponents is a product of powers. -/
theorem pow2_add (m n : Nat) : pow2 (m + n) = pow2 m * pow2 n :=
  Nat.pow_add 2 m n

/-- A power of two divides every later one. -/
theorem pow2_dvd_pow2
    {m n : Nat}
    (ordered : m ≤ n) :
    pow2 m ∣ pow2 n :=
  Nat.pow_dvd_pow 2 ordered

/-- Powers of two grow with the exponent. -/
theorem pow2_le_pow2
    {m n : Nat}
    (ordered : m ≤ n) :
    pow2 m ≤ pow2 n :=
  Nat.pow_le_pow_right (by decide) ordered

/-- Powers of two grow strictly with the exponent. -/
theorem pow2_lt_pow2
    {m n : Nat}
    (ordered : m < n) :
    pow2 m < pow2 n :=
  Nat.pow_lt_pow_right (by decide) ordered

/-- A number is below the power of two after its leading bit. -/
theorem lt_pow2_log2 (n : Nat) : n < pow2 (n.log2 + 1) :=
  Nat.lt_log2_self

/-- A positive number below a power of two has its leading bit below the exponent. -/
theorem log2_lt_of_lt_pow2
    {n exponent : Nat}
    (nonzero : n ≠ 0)
    (bounded : n < pow2 exponent) :
    n.log2 < exponent :=
  (Nat.log2_lt nonzero).2 bounded

end MiniLisp
