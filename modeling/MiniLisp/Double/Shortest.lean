import MiniLisp.Double.Decimal

namespace MiniLisp

/-!
# The shortest text of a double

A double is written with the fewest significant digits that read back as the
same double; of the decimals with that many digits the nearest one is taken, a
half going to the even digit.  `Layout` says where the point stands and when an
exponent is written.
-/

namespace Magnitude

/-- The power of ten of the first significant digit: `10 ^ e ≤ size < 10 ^ (e + 1)`. -/
def leadingExponent (size : Magnitude) : Int :=
  let scaled := size.units * pow10 324 / unitsPerOne
  ((Nat.toDigits 10 scaled).length : Int) - 325

/-- The decimals at a power of ten that are candidates for a size: the nearest one first. -/
def neighbours (size : Magnitude) (exponent : Int) : List Decimal :=
  let numerator := size.units * pow10 (-exponent).toNat
  let denominator := unitsPerOne * pow10 exponent.toNat
  let below := numerator / denominator
  [roundDiv numerator denominator, below, below + 1].map (⟨·, exponent⟩)

/-- A decimal with a given number of significant digits that reads back as the size. -/
def decimalOfLength? (size : Magnitude) (length : Nat) : Option Decimal :=
  (size.neighbours (size.leadingExponent + 1 - length)).find? fun d =>
    d.toMagnitude? = some size

/-- The decimal with the fewest significant digits that reads back; 17 digits always do. -/
def shortest (size : Magnitude) : Decimal :=
  ((List.range' 1 17).findSome? size.decimalOfLength?).getD ⟨0, 0⟩

end Magnitude

namespace Decimal

/-- The digits of a decimal without zeros at the end. -/
def significant (d : Decimal) : List Char :=
  ((Nat.toDigits 10 d.digits).reverse.dropWhile (· == '0')).reverse

/-- How many digits stand before the point; zero or less when it comes before the digits. -/
def point (d : Decimal) : Int :=
  (Nat.toDigits 10 d.digits).length + d.exponent

end Decimal

/-- How a decimal is laid out as text. -/
structure Layout where
  /-- The least position of the point that is written without an exponent. -/
  leastPoint : Int
  /-- The greatest position of the point that is written without an exponent. -/
  greatestPoint : Int
  /-- The least number of digits of an exponent. -/
  exponentWidth : Nat

namespace Layout

/-- From a ten-thousandth to below `10 ^ 16` without exponent, else with one of at least two digits. -/
def standard : Layout :=
  ⟨-3, 16, 2⟩

/-- The digits with the point at its place and at least one digit on either side. -/
def positional (digits : List Char) (point : Int) : List Char :=
  let before := digits.take point.toNat
  let after := digits.drop point.toNat
  let whole := before ++ List.replicate (point.toNat - before.length) '0'
  let fraction := List.replicate (-point).toNat '0' ++ after
  (if whole.isEmpty then ['0'] else whole) ++ '.' ::
    (if fraction.isEmpty then ['0'] else fraction)

/-- The digits with the point after the first one, and the power of ten. -/
def scientific (layout : Layout) (digits : List Char) (point : Int) : List Char :=
  let power := point - 1
  let powerDigits := Nat.toDigits 10 power.natAbs
  digits.take 1 ++
    (if digits.length ≤ 1 then [] else '.' :: digits.drop 1) ++
    ['e', if power < 0 then '-' else '+'] ++
    List.replicate (layout.exponentWidth - powerDigits.length) '0' ++ powerDigits

/-- A decimal in the layout. -/
def write (layout : Layout) (d : Decimal) : List Char :=
  if layout.leastPoint ≤ d.point ∧ d.point ≤ layout.greatestPoint then
    positional d.significant d.point
  else
    layout.scientific d.significant d.point

end Layout

/-- The shortest text that reads back as a double. -/
def Double.text : Double → String
  | .nan => "nan"
  | .inf false => "inf"
  | .inf true => "-inf"
  | .finite negative size =>
      let sign := if negative then ['-'] else []
      let digits :=
        if size.units = 0 then ['0', '.', '0'] else Layout.standard.write size.shortest
      String.ofList (sign ++ digits)

end MiniLisp
