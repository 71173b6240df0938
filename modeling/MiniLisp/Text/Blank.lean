namespace MiniLisp.Text

/-!
# Blank characters

Which characters separate words, the words of a text, and a text without the
blanks at its two ends.  Blanks are the separators of Unicode: besides the
space and the line breaks these are the information separators U+001C to
U+001F, the next-line control, and the wide and narrow spaces.
-/

/-- Inclusive ranges of the code points that separate words. -/
def blankRanges : List (Nat × Nat) :=
  [(0x0009, 0x000D), (0x001C, 0x0020), (0x0085, 0x0085), (0x00A0, 0x00A0),
   (0x1680, 0x1680), (0x2000, 0x200A), (0x2028, 0x2029), (0x202F, 0x202F),
   (0x205F, 0x205F), (0x3000, 0x3000)]

/-- Whether a character separates words. -/
def isBlank (c : Char) : Bool :=
  blankRanges.any fun (first, last) => first ≤ c.toNat && c.toNat ≤ last

/-- The maximal runs of characters that are not blank, from left to right. -/
def words (text : List Char) : List (List Char) :=
  (text.splitOnP isBlank).filter fun word => !word.isEmpty

/-- A text without the blanks at its two ends. -/
def trim (text : List Char) : List Char :=
  ((text.dropWhile isBlank).reverse.dropWhile isBlank).reverse

/-- Every character that core counts as white space is a blank. -/
theorem isBlank_of_isWhitespace
    {c : Char}
    (space : c.isWhitespace = true) :
    isBlank c = true := by
  simp only [Char.isWhitespace, Bool.or_eq_true, decide_eq_true_eq] at space
  rcases space with ((rfl | rfl) | rfl) | rfl <;> decide

/-- No word is empty. -/
theorem ne_nil_of_mem_words
    {text word : List Char}
    (member : word ∈ words text) :
    word ≠ [] := by
  simp only [words, List.mem_filter] at member
  intro empty
  simp [empty] at member

end MiniLisp.Text
