import MiniLisp.Double.Magnitude

namespace MiniLisp

/-!
# Doubles

Binary floating point numbers of 64 bits: not-a-number, the two infinities, and
signed finite numbers, zero included.  Zero keeps its sign.  Sums, products and
quotients are the exact results rounded once; what rounds past the finite range
is infinite.
-/

/-- A binary floating point number of 64 bits. -/
inductive Double where
  | nan
  | inf (negative : Bool)
  | finite (negative : Bool) (size : Magnitude)
  deriving DecidableEq

namespace Double

/-- The zero of a given sign. -/
def zero (negative : Bool) : Double :=
  .finite negative .zero

/-- A quotient of units rounded to a double; what is past the range is infinite. -/
def round (negative : Bool) (numerator denominator : Nat) : Double :=
  match Magnitude.round? numerator denominator with
  | some size => .finite negative size
  | none => .inf negative

/-- Whether the sign is minus; not-a-number counts as unsigned. -/
def isNegative : Double → Bool
  | .nan => false
  | .inf negative => negative
  | .finite negative _ => negative

/-- Whether a double is one of the two zeros. -/
def isZero : Double → Bool
  | .finite _ size => size.units == 0
  | _ => false

/-- The same size with the other sign. -/
def neg : Double → Double
  | .nan => .nan
  | .inf negative => .inf !negative
  | .finite negative size => .finite (!negative) size

/-- The same size with a plus sign. -/
def abs : Double → Double
  | .nan => .nan
  | .inf _ => .inf false
  | .finite _ size => .finite false size

/-- A number of units with its sign, as an integer. -/
def signedUnits (negative : Bool) (size : Magnitude) : Int :=
  if negative then -(size.units : Int) else size.units

/-- The sum; opposite infinities have none, and a zero sum is negative only if both parts are. -/
def add : Double → Double → Double
  | .nan, _ => .nan
  | _, .nan => .nan
  | .inf left, .inf right => if left = right then .inf left else .nan
  | .inf left, .finite _ _ => .inf left
  | .finite _ _, .inf right => .inf right
  | .finite left a, .finite right b =>
      let sum := signedUnits left a + signedUnits right b
      if sum = 0 then
        zero (left && right)
      else
        round (sum < 0) sum.natAbs 1

/-- The difference. -/
def sub (x y : Double) : Double :=
  x.add y.neg

/-- The product; zero times infinity has none. -/
def mul : Double → Double → Double
  | .nan, _ => .nan
  | _, .nan => .nan
  | .inf left, .inf right => .inf (left != right)
  | .inf left, .finite right b => if b.units = 0 then .nan else .inf (left != right)
  | .finite left a, .inf right => if a.units = 0 then .nan else .inf (left != right)
  | .finite left a, .finite right b => round (left != right) (a.units * b.units) unitsPerOne

/-- The quotient; zero by zero and infinity by infinity have none. -/
def div : Double → Double → Double
  | .nan, _ => .nan
  | _, .nan => .nan
  | .inf _, .inf _ => .nan
  | .inf left, .finite right _ => .inf (left != right)
  | .finite left _, .inf right => zero (left != right)
  | .finite left a, .finite right b =>
      if b.units = 0 then
        if a.units = 0 then .nan else .inf (left != right)
      else
        round (left != right) (a.units * unitsPerOne) b.units

/-- What is left of a dividend after division toward zero; it keeps the sign of the dividend. -/
def remainder : Double → Double → Double
  | .nan, _ => .nan
  | _, .nan => .nan
  | .inf _, _ => .nan
  | .finite left a, .inf _ => .finite left a
  | .finite left a, .finite _ b =>
      if b.units = 0 then .nan else round left (a.units % b.units) 1

/-- What is left of a dividend after division to the floor; it takes the sign of the divisor. -/
def modulo (x y : Double) : Double :=
  let left := x.remainder y
  if left.isZero then
    zero y.isNegative
  else if left.isNegative = y.isNegative then
    left
  else
    left.add y

end Double

end MiniLisp
