namespace MiniLisp.Text

/-!
# Hexadecimal numerals

Numbers of a fixed width, as escapes and messages about bytes show them.
-/

/-- A number in lower case hexadecimal digits, filled up with zeros to a width. -/
def hex (width : Nat) (value : Nat) : List Char :=
  let digits := Nat.toDigits 16 value
  List.replicate (width - digits.length) '0' ++ digits

end MiniLisp.Text
