import MiniLisp.Datum
import MiniLisp.Double.Shortest
import MiniLisp.Fault

namespace MiniLisp

/-!
# Printing

The text of an expression or a value.  Source made of literals, words, names and
lists prints as source that reads back.  The limit bounds the nesting of lists;
an integer of more than `maxDigits` digits has no text.
-/

/--
Whether a number has at most `maxDigits` digits.  One that takes more than four
bits for each of them has more, and its digits need not be counted.
-/
def hasFewDigits (n : Nat) : Bool :=
  n.log2 ≤ 4 * maxDigits && (Nat.toDigits 10 n).length ≤ maxDigits

/-- The text of a number; an integer may have too many digits for one. -/
def Number.text : Number → Except Fault String
  | .int n => if hasFewDigits n.natAbs then .ok n.repr else .error .tooManyDigits
  | .float x => .ok x.text

/-- A procedure is shown by its name only. -/
def Closure.text {α : Type} (closure : Closure α) : String :=
  match closure.name with
  | some name => "#<Function: " ++ name ++ ">"
  | none => "#<Lambda>"

/-- The text of a datum. -/
def Datum.render : Nat → Datum → Except Fault String
  | 0, _ => .error .tooDeep
  | _ + 1, .nil => .ok "nil"
  | _ + 1, .bool value => .ok (if value then "true" else "false")
  | _ + 1, .number value => value.text
  | _ + 1, .word reserved => .ok reserved.text
  | _ + 1, .name text => .ok text
  | limit + 1, .list items => do
      let texts ← items.mapM (render limit)
      .ok ("(" ++ " ".intercalate texts ++ ")")
  | _ + 1, .procedure closure => .ok closure.text

end MiniLisp
