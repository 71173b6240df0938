namespace MiniLisp.Text

/-!
# Lines of a text

A line ends at a line feed, at a carriage return, or at a carriage return with
its line feed.  No other character ends a line.
-/

/-- Writes every line end as a single line feed. -/
def unifyLineEnds : List Char → List Char
  | [] => []
  | '\r' :: '\n' :: rest => '\n' :: unifyLineEnds rest
  | '\r' :: rest => '\n' :: unifyLineEnds rest
  | c :: rest => c :: unifyLineEnds rest

/-- The lines of a text without their ends; after the last end there is a line only if not empty. -/
def lines (text : List Char) : List (List Char) :=
  let pieces := (unifyLineEnds text).splitOnP (· == '\n')
  if pieces.getLast? = some [] then pieces.dropLast else pieces

end MiniLisp.Text
