import MiniLisp.Double.Basic

namespace MiniLisp

/-!
# Numbers

A number is an integer of any size or a double.  Operations on two integers
stay exact, except for division, which always gives a double.  As soon as one
operand is a double the other is rounded to one; an integer that is past the
range of doubles has no such rounding, and then the operation has no result.

Comparisons never round: every number has an exact place on the line, apart from
not-a-number, which is not comparable with anything.
-/

/-- An exact integer or a double. -/
inductive Number where
  | int (value : Int)
  | float (value : Double)
  deriving DecidableEq

/-- The double nearest to a quotient of integers; nothing if it is past the range. -/
def Double.ofQuotient? (a b : Int) : Option Double :=
  (Magnitude.round? (a.natAbs * unitsPerOne) b.natAbs).map
    (.finite (decide (a < 0) != decide (b < 0)))

/-- The double nearest to an integer; nothing if it is past the range. -/
def Double.ofInt? (n : Int) : Option Double :=
  (Magnitude.round? (n.natAbs * unitsPerOne) 1).map (.finite (n < 0))

/-- What is left of a dividend after division toward zero, with the sign of the dividend. -/
def Double.truncatedRemainder (x y : Double) : Double :=
  let left := x.abs.modulo y.abs
  if x.isNegative && !x.isZero then left.neg else left

namespace Number

/-- A number as a double; nothing if it is past the range. -/
def toDouble? : Number → Option Double
  | .int n => Double.ofInt? n
  | .float x => some x

/-- An operation on doubles, for any two numbers. -/
def onDoubles? (op : Double → Double → Double) (x y : Number) : Option Number := do
  let a ← x.toDouble?
  let b ← y.toDouble?
  some (.float (op a b))

/-- Whether a number is zero, of whichever sign. -/
def isZero : Number → Bool
  | .int n => n == 0
  | .float x => x.isZero

/-- The number with the other sign. -/
def neg : Number → Number
  | .int n => .int (-n)
  | .float x => .float x.neg

/-- The sum. -/
def add? : Number → Number → Option Number
  | .int a, .int b => some (.int (a + b))
  | x, y => onDoubles? Double.add x y

/-- The difference. -/
def sub? : Number → Number → Option Number
  | .int a, .int b => some (.int (a - b))
  | x, y => onDoubles? Double.sub x y

/-- The product. -/
def mul? : Number → Number → Option Number
  | .int a, .int b => some (.int (a * b))
  | x, y => onDoubles? Double.mul x y

/-- The quotient, a double also for two integers; the divisor is not zero. -/
def div? : Number → Number → Option Number
  | .int a, .int b => (Double.ofQuotient? a b).map .float
  | x, y => onDoubles? Double.div x y

/-- The remainder of division to the floor; the divisor is not zero. -/
def mod? : Number → Number → Option Number
  | .int a, .int b => some (.int (a.fmod b))
  | x, y => onDoubles? Double.modulo x y

/-- The remainder of division toward zero; the divisor is not zero. -/
def rem? : Number → Number → Option Number
  | .int a, .int b => some (.int (a.tmod b))
  | x, y => onDoubles? Double.truncatedRemainder x y

/--
The place of a number on the line.  The first part tells the infinities from
the finite numbers, the second part counts units.
-/
def place? : Number → Option (Int × Int)
  | .int n => some (0, n * unitsPerOne)
  | .float .nan => none
  | .float (.inf negative) => some (if negative then -1 else 1, 0)
  | .float (.finite negative size) => some (0, Double.signedUnits negative size)

/-- The order of two numbers; nothing if one of them is not-a-number. -/
def compare? : Number → Number → Option Ordering
  | .int a, .int b => some (compare a b)
  | x, y => do
      let (side, units) ← x.place?
      let (otherSide, otherUnits) ← y.place?
      some ((compare side otherSide).then (compare units otherUnits))

end Number

end MiniLisp
