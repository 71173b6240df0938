import MiniLisp.Datum.Atom
import MiniLisp.Datum.Printer

namespace MiniLisp

/-!
# What atoms denote

An atom is an integer numeral, a numeral with a point, or neither.  The three
kinds exclude each other, and only an integer numeral can be refused.
-/

/-- Whether a text is an integer numeral of more digits than can be read. -/
def isOversized (text : List Char) : Bool :=
  match integerNumeral? text with
  | some (_, digits) => maxDigits < digits.length
  | none => false

namespace Datum

/-- What an atom can denote, and on what account. -/
inductive Denotes (text : String) : Datum → Prop where
  | integer
      {negative : Bool}
      {digits : List Nat}
      (numeral :
        integerNumeral? (Text.dropFinalLineFeed text.toList) = some (negative, digits))
      (few : digits.length ≤ maxDigits) :
      Denotes text (.number (.int (signedInt negative (Text.ofDigits digits))))
  | float
      {negative : Bool}
      {decimal : Decimal}
      (notInteger : integerNumeral? (Text.dropFinalLineFeed text.toList) = none)
      (numeral :
        pointNumeral? (Text.dropFinalLineFeed text.toList) = some (negative, decimal)) :
      Denotes text (.number (.float (decimal.toDouble negative)))
  | word
      (notInteger : integerNumeral? (Text.dropFinalLineFeed text.toList) = none)
      (notFloat : pointNumeral? (Text.dropFinalLineFeed text.toList) = none) :
      Denotes text (ofWord text)

/-- Every datum that an atom is read as is one that it can denote. -/
theorem denotes_of_ofAtom
    {text : String}
    {datum : Datum}
    (denotes : ofAtom text = .ok datum) :
    Denotes text datum := by
  unfold ofAtom at denotes
  dsimp only at denotes
  split at denotes
  · next negative digits numeral =>
      split at denotes
      · next few =>
          cases denotes
          exact .integer numeral few
      · cases denotes
  · next notInteger =>
      split at denotes
      · next negative decimal numeral =>
          cases denotes
          exact .float notInteger numeral
      · next notFloat =>
          cases denotes
          exact .word notInteger notFloat

/-- An integer numeral of too many digits is refused. -/
theorem ofAtom_of_isOversized
    {text : String}
    (oversized : isOversized (Text.dropFinalLineFeed text.toList) = true) :
    ofAtom text = .error (.numberTooLarge text) := by
  unfold isOversized at oversized
  unfold ofAtom
  split at oversized
  · next negative digits numeral =>
      have many : ¬digits.length ≤ maxDigits := by
        simpa using oversized
      simp only [numeral, if_neg many]
  · contradiction

/-- Every other atom denotes something. -/
theorem exists_ofAtom_of_not_isOversized
    {text : String}
    (fits : isOversized (Text.dropFinalLineFeed text.toList) = false) :
    ∃ datum, ofAtom text = .ok datum := by
  unfold isOversized at fits
  unfold ofAtom
  split at fits
  · next negative digits numeral =>
      have few : digits.length ≤ maxDigits := by
        simpa using fits
      simp only [numeral, if_pos few]
      exact ⟨_, rfl⟩
  · next notInteger =>
      simp only [notInteger]
      split
      · exact ⟨_, rfl⟩
      · exact ⟨_, rfl⟩

/-- An atom is refused only as an integer numeral of too many digits. -/
theorem isOversized_of_ofAtom_error
    {text : String}
    {error : ParseError}
    (refused : ofAtom text = .error error) :
    isOversized (Text.dropFinalLineFeed text.toList) = true ∧ error = .numberTooLarge text := by
  cases oversized : isOversized (Text.dropFinalLineFeed text.toList) with
  | true =>
      rw [ofAtom_of_isOversized oversized] at refused
      cases refused
      exact ⟨rfl, rfl⟩
  | false =>
      obtain ⟨datum, denotes⟩ := exists_ofAtom_of_not_isOversized oversized
      rw [denotes] at refused
      cases refused

end Datum

end MiniLisp
