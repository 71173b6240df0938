namespace MiniLisp.Text

/-!
# Cutting texts

A text cut in two at a separator, and a text without its leading minus sign.
-/

/-- Cuts a text at the first character of a kind; the second part is missing if there is none. -/
def cutAt (isCut : Char → Bool) (text : List Char) : List Char × Option (List Char) :=
  match text.dropWhile (!isCut ·) with
  | [] => (text, none)
  | _ :: rest => (text.takeWhile (!isCut ·), some rest)

/-- Splits off a leading minus sign; the flag says whether there was one. -/
def takeMinus : List Char → Bool × List Char
  | '-' :: rest => (true, rest)
  | text => (false, text)

/-- A text without one line feed at its very end. -/
def dropFinalLineFeed (text : List Char) : List Char :=
  if text.getLast? = some '\n' then text.dropLast else text

end MiniLisp.Text
