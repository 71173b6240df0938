import MiniLisp.Datum
import MiniLisp.Double.Decimal
import MiniLisp.Fault

namespace MiniLisp

/-!
# Atoms

What a single atom of a source text denotes.  A numeral is an integer or, with
a point between digits, a double; `true` and `false` are truth values; a
reserved word is that word; anything else is a name.  The digits may be of any
script.  One line feed at the very end of a numeral does not count.
-/

/-- The sign and the digits of an integer numeral. -/
def integerNumeral? (text : List Char) : Option (Bool × List Nat) :=
  let (negative, unsigned) := Text.takeMinus text
  (Text.digitValues? unsigned).map (negative, ·)

/-- The sign and the value of a numeral with a point between two runs of digits. -/
def pointNumeral? (text : List Char) : Option (Bool × Decimal) := do
  let (negative, unsigned) := Text.takeMinus text
  let (wholeText, fractionText) := Text.cutAt (· == '.') unsigned
  let whole ← Text.digitValues? wholeText
  let fraction ← Text.digitValues? (← fractionText)
  some (negative, Decimal.ofParts whole fraction)

/-- An integer from its sign and its size. -/
def signedInt (negative : Bool) (size : Nat) : Int :=
  if negative then -(size : Int) else size

namespace Datum

/-- What an atom that is no numeral denotes. -/
def ofWord (text : String) : Datum :=
  if text = "true" then
    .bool true
  else if text = "false" then
    .bool false
  else
    match Word.ofText? text with
    | some reserved => .word reserved
    | none => .name text

/-- What an atom denotes; an integer of too many digits is refused. -/
def ofAtom (text : String) : Except ParseError Datum :=
  let numeral := Text.dropFinalLineFeed text.toList
  match integerNumeral? numeral with
  | some (negative, digits) =>
      if digits.length ≤ maxDigits then
        .ok (.number (.int (signedInt negative (Text.ofDigits digits))))
      else
        .error (.numberTooLarge text)
  | none =>
      match pointNumeral? numeral with
      | some (negative, decimal) => .ok (.number (.float (decimal.toDouble negative)))
      | none => .ok (ofWord text)

end Datum

end MiniLisp
