import Mathlib.Algebra.Order.Group.Nat
import MiniLisp.Double.Power
import MiniLisp.Proofs.Atom
import MiniLisp.Proofs.Tokenization

namespace MiniLisp

/-!
# Canonical numerals

An integer has many numerals: with zeros in front, with the digits of any
script, and zero also with a minus sign.  One of them is canonical, the one that
printing gives.  Reading it gives the integer back, and a numeral short enough
to be read has a canonical numeral short enough to be printed.
-/

/--
The canonical text of a numeral with given digits: ASCII digits without zeros in
front, and a minus sign only before a number other than zero.
-/
def canonicalNumeral (negative : Bool) (digits : List Nat) : List Char :=
  match digits.dropWhile (· == 0) with
  | [] => ['0']
  | significant => (if negative then ['-'] else []) ++ significant.map Nat.digitChar

theorem canonicalNumeral_of_nil
    {digits : List Nat}
    (negative : Bool)
    (shape : digits.dropWhile (· == 0) = []) :
    canonicalNumeral negative digits = ['0'] := by
  rw [canonicalNumeral, shape]

theorem canonicalNumeral_of_cons
    {digits rest : List Nat}
    {digit : Nat}
    (negative : Bool)
    (shape : digits.dropWhile (· == 0) = digit :: rest) :
    canonicalNumeral negative digits =
      (if negative then ['-'] else []) ++ (digit :: rest).map Nat.digitChar := by
  rw [canonicalNumeral, shape]

theorem Text.ofDigits_dropWhile_zero
    (digits : List Nat) :
    ofDigits (digits.dropWhile (· == 0)) = ofDigits digits := by
  induction digits with
  | nil =>
      rfl
  | cons digit rest inductionHypothesis =>
      rw [List.dropWhile_cons]
      by_cases leading : digit = 0
      · rw [if_pos (beq_iff_eq.mpr leading), inductionHypothesis, leading]
        rfl
      · rw [if_neg (mt beq_iff_eq.mp leading)]

/-- Decimal digits are all zero, or there is a first one that is not. -/
theorem significant_cases
    {digits : List Nat}
    (decimal : ∀ digit ∈ digits, digit < 10) :
    (digits.dropWhile (· == 0) = [] ∧ Text.ofDigits digits = 0) ∨
      ∃ digit rest,
        digits.dropWhile (· == 0) = digit :: rest ∧
          digit ≠ 0 ∧
          (∀ other ∈ digit :: rest, other < 10) ∧
          Text.ofDigits digits = Text.ofDigits (digit :: rest) ∧
          (digit :: rest).length ≤ digits.length := by
  have sameNumber := Text.ofDigits_dropWhile_zero digits
  have notLonger : (digits.dropWhile (· == 0)).length ≤ digits.length :=
    (List.dropWhile_sublist _).length_le
  have stillDecimal : ∀ digit ∈ digits.dropWhile (· == 0), digit < 10 :=
    fun digit member => decimal digit (List.dropWhile_subset _ member)
  have firstNonzero := List.head?_dropWhile_not (· == 0) digits
  cases shape : digits.dropWhile (· == 0) with
  | nil =>
      rw [shape] at sameNumber
      exact .inl ⟨rfl, sameNumber.symm⟩
  | cons digit rest =>
      rw [shape] at sameNumber notLonger stillDecimal firstNonzero
      exact .inr ⟨digit, rest, rfl, by simpa using firstNonzero, stillDecimal,
        sameNumber.symm, notLonger⟩

/-- Digits after a positive number continue its decimal text. -/
theorem toDigits_foldl
    {digits : List Nat}
    (decimal : ∀ digit ∈ digits, digit < 10)
    {start : Nat}
    (positive : 0 < start) :
    Nat.toDigits 10 (digits.foldl (fun value digit => 10 * value + digit) start) =
      Nat.toDigits 10 start ++ digits.map Nat.digitChar := by
  induction digits generalizing start with
  | nil =>
      simp
  | cons digit rest inductionHypothesis =>
      have small : digit < 10 := decimal digit (by simp)
      have later := inductionHypothesis
        (fun other member => decimal other (by simp [member]))
        (show 0 < 10 * start + digit by omega)
      have continued :
          Nat.toDigits 10 (10 * start + digit) =
            Nat.toDigits 10 start ++ [Nat.digitChar digit] := by
        rw [← Nat.toDigits_append_toDigits (by decide) positive small,
          Nat.toDigits_of_lt_base small]
      rw [List.foldl_cons, later, continued, List.append_assoc, List.map_cons,
        List.singleton_append]

/-- Digits of which the first is not zero are the decimal text of their number. -/
theorem toDigits_ofDigits_cons
    {digit : Nat}
    {rest : List Nat}
    (nonzero : digit ≠ 0)
    (decimal : ∀ other ∈ digit :: rest, other < 10) :
    Nat.toDigits 10 (Text.ofDigits (digit :: rest)) = (digit :: rest).map Nat.digitChar := by
  have small : digit < 10 := decimal digit (by simp)
  have restDecimal : ∀ other ∈ rest, other < 10 :=
    fun other member => decimal other (by simp [member])
  have continued := toDigits_foldl restDecimal (Nat.pos_of_ne_zero nonzero)
  rw [Nat.toDigits_of_lt_base small] at continued
  simpa [Text.ofDigits] using continued

theorem le_foldl_digits
    (digits : List Nat)
    (start : Nat) :
    start ≤ digits.foldl (fun value digit => 10 * value + digit) start := by
  induction digits generalizing start with
  | nil =>
      exact le_refl start
  | cons digit rest inductionHypothesis =>
      have later := inductionHypothesis (10 * start + digit)
      rw [List.foldl_cons]
      omega

section Printing

variable {digits : List Nat}

/-- An integer is printed as its canonical numeral. -/
theorem repr_signedInt
    (negative : Bool)
    (decimal : ∀ digit ∈ digits, digit < 10) :
    (signedInt negative (Text.ofDigits digits)).repr.toList = canonicalNumeral negative digits := by
  rcases significant_cases decimal with
    ⟨shape, zero⟩ | ⟨digit, rest, shape, nonzero, stillDecimal, sameNumber, -⟩
  · rw [canonicalNumeral_of_nil negative shape, zero]
    cases negative <;> decide
  · -- The first digit makes the number positive, so that a minus sign is printed.
    have atLeast : 10 * 0 + digit ≤ Text.ofDigits (digit :: rest) := le_foldl_digits rest _
    rw [canonicalNumeral_of_cons negative shape, sameNumber,
      ← toDigits_ofDigits_cons nonzero stillDecimal]
    generalize Text.ofDigits (digit :: rest) = n at atLeast
    cases negative with
    | false =>
        have printed : (n : Int).repr = n.repr := by
          rw [Int.repr_eq_if, if_pos (Int.natCast_nonneg n), Int.toNat_natCast]
        change (n : Int).repr.toList = Nat.toDigits 10 n
        rw [printed, Nat.toList_repr]
    | true =>
        have printed : (-(n : Int)).repr = "-" ++ n.repr := by
          rw [Int.repr_eq_if, if_neg (by omega), Int.neg_neg, Int.toNat_natCast]
        change (-(n : Int)).repr.toList = '-' :: Nat.toDigits 10 n
        rw [printed, String.toList_append, Nat.toList_repr]
        rfl

theorem natAbs_signedInt
    (negative : Bool)
    (size : Nat) :
    (signedInt negative size).natAbs = size := by
  cases negative with
  | false =>
      exact Int.natAbs_natCast size
  | true =>
      exact (Int.natAbs_neg size).trans (Int.natAbs_natCast size)

/-- A number has few digits just if its decimal text is short; the bits need not be looked at. -/
theorem hasFewDigits_iff
    (n : Nat) :
    hasFewDigits n = true ↔ (Nat.toDigits 10 n).length ≤ maxDigits := by
  have positive : 0 < maxDigits := by
    decide
  unfold hasFewDigits
  -- The bound is a large number that nothing here should compute with.
  generalize maxDigits = count at positive ⊢
  simp only [Bool.and_eq_true, decide_eq_true_eq, and_iff_right_iff_imp]
  intro short
  by_cases zero : n = 0
  · rw [zero]
    exact Nat.zero_le _
  · have bounded : n < pow10 count := (Nat.length_toDigits_le_iff (by decide) positive).mp short
    have powers : pow10 count ≤ pow2 (4 * count) := by
      have base : Nat.pow 10 count ≤ Nat.pow 16 count := Nat.pow_le_pow_left (by decide) count
      have bits : Nat.pow 16 count = Nat.pow 2 (4 * count) := (Nat.pow_mul 2 4 count).symm
      exact base.trans_eq bits
    exact (log2_lt_of_lt_pow2 zero (bounded.trans_le powers)).le

/-- A numeral short enough to be read denotes a number short enough to be printed. -/
theorem hasFewDigits_ofDigits
    (decimal : ∀ digit ∈ digits, digit < 10)
    (few : digits.length ≤ maxDigits) :
    hasFewDigits (Text.ofDigits digits) = true := by
  rw [hasFewDigits_iff]
  rcases significant_cases decimal with
    ⟨-, zero⟩ | ⟨digit, rest, -, nonzero, stillDecimal, sameNumber, notLonger⟩
  · rw [zero]
    decide
  · rw [sameNumber, toDigits_ofDigits_cons nonzero stillDecimal, List.length_map]
    exact notLonger.trans few

end Printing

section Reading

variable {digits : List Nat}

/-- An ASCII digit has its value, stands in atoms, and is no minus sign. -/
theorem digitChar_spec
    {digit : Nat}
    (small : digit < 10) :
    Text.digitValue? (Nat.digitChar digit) = some digit ∧
      isAtomChar (Nat.digitChar digit) = true ∧
      Nat.digitChar digit ≠ '-' := by
  have all :
      ∀ other ∈ List.range 10,
        Text.digitValue? (Nat.digitChar other) = some other ∧
          isAtomChar (Nat.digitChar other) = true ∧
          Nat.digitChar other ≠ '-' := by
    decide
  exact all digit (List.mem_range.mpr small)

theorem digitValues?_map_digitChar
    (nonempty : digits ≠ [])
    (decimal : ∀ digit ∈ digits, digit < 10) :
    Text.digitValues? (digits.map Nat.digitChar) = some digits := by
  have values : (digits.map Nat.digitChar).mapM Text.digitValue? = some digits := by
    clear nonempty
    induction digits with
    | nil =>
        rfl
    | cons digit rest inductionHypothesis =>
        have restValues :=
          inductionHypothesis fun other member => decimal other (by simp [member])
        rw [List.map_cons, List.mapM_cons, (digitChar_spec (decimal digit (by simp))).1, restValues]
        rfl
  rw [Text.digitValues?, if_neg (by simpa using nonempty), values]

/-- Digits of any script have decimal values, one for each. -/
theorem decimal_of_mapM_digitValue?
    {text : List Char}
    (values : text.mapM Text.digitValue? = some digits) :
    digits.length = text.length ∧ ∀ digit ∈ digits, digit < 10 := by
  induction text generalizing digits with
  | nil =>
      cases values
      exact ⟨rfl, by simp⟩
  | cons c rest inductionHypothesis =>
      rw [List.mapM_cons] at values
      obtain ⟨digit, first, values⟩ := Option.bind_eq_some_iff.mp values
      obtain ⟨others, later, same⟩ := Option.bind_eq_some_iff.mp values
      cases same
      obtain ⟨sameLength, decimal⟩ := inductionHypothesis later
      refine ⟨by simp [sameLength], ?_⟩
      intro other member
      rcases List.mem_cons.mp member with rfl | inOthers
      · exact Text.digitValue?_lt_ten first
      · exact decimal other inOthers

/-- A numeral has digits, and they are decimal. -/
theorem decimal_of_integerNumeral?
    {text : List Char}
    {negative : Bool}
    (numeral : integerNumeral? text = some (negative, digits)) :
    digits ≠ [] ∧ ∀ digit ∈ digits, digit < 10 := by
  rw [integerNumeral?] at numeral
  generalize Text.takeMinus text = signed at numeral
  obtain ⟨values, found, same⟩ := Option.map_eq_some_iff.mp numeral
  cases same
  generalize signed.2 = unsigned at found
  rw [Text.digitValues?] at found
  split at found
  · cases found
  · next nonempty =>
      obtain ⟨sameLength, decimal⟩ := decimal_of_mapM_digitValue? found
      refine ⟨?_, decimal⟩
      rintro rfl
      have empty : unsigned = [] := List.length_eq_zero_iff.mp sameLength.symm
      exact nonempty (List.isEmpty_iff.mpr empty)

theorem takeMinus_of_ne
    {c : Char}
    (notMinus : c ≠ '-')
    (rest : List Char) :
    Text.takeMinus (c :: rest) = (false, c :: rest) := by
  unfold Text.takeMinus
  split
  · next same =>
      exact absurd (List.cons.inj same).1 notMinus
  · rfl

/-- The canonical numeral is read as the number that it was made from. -/
theorem integerNumeral?_canonicalNumeral
    (negative : Bool)
    (nonempty : digits ≠ [])
    (decimal : ∀ digit ∈ digits, digit < 10) :
    ∃ sign significant,
      integerNumeral? (canonicalNumeral negative digits) = some (sign, significant) ∧
        significant.length ≤ digits.length ∧
        signedInt sign (Text.ofDigits significant) =
          signedInt negative (Text.ofDigits digits) := by
  rcases significant_cases decimal with
    ⟨shape, zero⟩ | ⟨digit, rest, shape, nonzero, stillDecimal, sameNumber, notLonger⟩
  · refine ⟨false, [0], ?_, List.length_pos_iff.mpr nonempty, ?_⟩
    · rw [canonicalNumeral_of_nil negative shape]
      decide
    · rw [zero]
      cases negative <;> rfl
  · refine ⟨negative, digit :: rest, ?_, notLonger, by rw [sameNumber]⟩
    have values := digitValues?_map_digitChar (List.cons_ne_nil digit rest) stillDecimal
    have notMinus := (digitChar_spec (stillDecimal digit (by simp))).2.2
    rw [canonicalNumeral_of_cons negative shape]
    cases negative with
    | false =>
        change integerNumeral? ((digit :: rest).map Nat.digitChar) = _
        rw [integerNumeral?, List.map_cons, takeMinus_of_ne notMinus, ← List.map_cons]
        simp only [values, Option.map_some]
    | true =>
        change integerNumeral? ('-' :: (digit :: rest).map Nat.digitChar) = _
        rw [integerNumeral?, Text.takeMinus]
        simp only [values, Option.map_some]

theorem isAtomText_canonicalNumeral
    (negative : Bool)
    (decimal : ∀ digit ∈ digits, digit < 10) :
    IsAtomText (String.ofList (canonicalNumeral negative digits)) := by
  rcases significant_cases decimal with
    ⟨shape, -⟩ | ⟨digit, rest, shape, -, stillDecimal, -, -⟩
  · rw [canonicalNumeral_of_nil negative shape]
    refine ⟨by simp, ?_⟩
    rw [String.toList_ofList]
    intro c member
    rw [List.mem_singleton.mp member]
    decide
  · rw [canonicalNumeral_of_cons negative shape]
    refine ⟨by simp, ?_⟩
    rw [String.toList_ofList]
    intro c member
    rcases List.mem_append.mp member with sign | inDigits
    · have minus : c = '-' := by
        cases negative with
        | false =>
            cases sign
        | true =>
            simpa using sign
      rw [minus]
      decide
    · obtain ⟨value, inside, rfl⟩ := List.mem_map.mp inDigits
      exact (digitChar_spec (stillDecimal value inside)).2.1

/-- The canonical numeral denotes the integer that it was made from. -/
theorem ofAtom_canonicalNumeral
    (negative : Bool)
    (nonempty : digits ≠ [])
    (decimal : ∀ digit ∈ digits, digit < 10)
    (few : digits.length ≤ maxDigits) :
    Datum.ofAtom (String.ofList (canonicalNumeral negative digits)) =
      .ok (.number (.int (signedInt negative (Text.ofDigits digits)))) := by
  obtain ⟨sign, significant, numeral, notLonger, sameNumber⟩ :=
    integerNumeral?_canonicalNumeral negative nonempty decimal
  have atomic := isAtomText_canonicalNumeral negative decimal
  rw [Datum.ofAtom, atomic.dropFinalLineFeed, String.toList_ofList]
  simp only [numeral, if_pos (notLonger.trans few), sameNumber]

end Reading

end MiniLisp
