import MiniLisp.Double.Basic
import MiniLisp.Text.Blank
import MiniLisp.Text.Cut
import MiniLisp.Text.Digit

namespace MiniLisp

/-!
# Doubles from decimals

A decimal is a whole number times a power of ten.  Reading one rounds its exact
value once.  A numeral is a decimal in text: an optional sign, digits with an
optional point, an optional exponent; single underscores may stand between
digits, and the names of the infinities and of not-a-number count as well.
-/

/-- The number `digits * 10 ^ exponent`. -/
structure Decimal where
  digits : Nat
  exponent : Int
  deriving Repr, DecidableEq

namespace Decimal

/-- The numerator of a decimal written as a quotient of whole numbers. -/
def numerator (d : Decimal) : Nat :=
  d.digits * pow10 d.exponent.toNat

/-- The denominator of a decimal written as a quotient of whole numbers. -/
def denominator (d : Decimal) : Nat :=
  pow10 (-d.exponent).toNat

/-- The size nearest to a decimal, or nothing past the range. -/
def toMagnitude? (d : Decimal) : Option Magnitude :=
  Magnitude.round? (d.numerator * unitsPerOne) d.denominator

/--
The double nearest to a decimal of a given sign.  Decimals from `10 ^ 400` on
are past the range and those below `10 ^ -400` round to zero, so neither needs
its power of ten computed.
-/
def toDouble (negative : Bool) (d : Decimal) : Double :=
  if d.digits = 0 ∨ d.exponent + d.digits.log2 + 1 < -400 then
    .zero negative
  else if 400 < d.exponent then
    .inf negative
  else
    .round negative (d.numerator * unitsPerOne) d.denominator

/-- The decimal with the given digits before and after its point. -/
def ofParts (whole fraction : List Nat) : Decimal :=
  ⟨Text.ofDigits (whole ++ fraction), -(fraction.length : Int)⟩

end Decimal

namespace Double

/-- Splits off a leading sign; the flag says whether it was a minus. -/
def takeSign : List Char → Bool × List Char
  | '-' :: rest => (true, rest)
  | '+' :: rest => (false, rest)
  | text => (false, text)

/-- The digits of a run in which single underscores may stand between two digits. -/
def digitRun? (text : List Char) : Option (List Nat) :=
  ((text.splitOnP (· == '_')).mapM Text.digitValues?).map List.flatten

/-- The digits of a part of a numeral that may be left out. -/
def optionalRun? (text : List Char) : Option (List Nat) :=
  if text.isEmpty then some [] else digitRun? text

/-- An exponent with its sign; a missing one is zero. -/
def exponent? : Option (List Char) → Option Int
  | none => some 0
  | some text =>
      let (negative, digits) := takeSign text
      (digitRun? digits).map fun run =>
        if negative then -(Text.ofDigits run : Int) else Text.ofDigits run

/-- The decimal that an unsigned numeral denotes. -/
def decimal? (text : List Char) : Option Decimal := do
  let (mantissa, exponentText) := Text.cutAt (fun c => c == 'e' || c == 'E') text
  let (wholeText, fractionText) := Text.cutAt (· == '.') mantissa
  let whole ← optionalRun? wholeText
  let fraction ← optionalRun? (fractionText.getD [])
  let exponent ← exponent? exponentText
  if whole.isEmpty && fraction.isEmpty then
    none
  else
    let parts := Decimal.ofParts whole fraction
    some ⟨parts.digits, parts.exponent + exponent⟩

/-- The double that a numeral denotes; blanks around it do not count. -/
def ofNumeral? (text : String) : Option Double :=
  let (negative, unsigned) := takeSign (Text.trim text.toList)
  let lower := String.ofList (unsigned.map Char.toLower)
  if lower = "inf" ∨ lower = "infinity" then
    some (.inf negative)
  else if lower = "nan" then
    some .nan
  else
    (decimal? unsigned).map (Decimal.toDouble negative)

end Double

end MiniLisp
