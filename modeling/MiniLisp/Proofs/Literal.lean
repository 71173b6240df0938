import Mathlib.Algebra.Order.Ring.Int
import Mathlib.Data.List.Forall2
import Mathlib.Data.Nat.Digits.Lemmas
import MiniLisp.Proofs.Printable
import MiniLisp.Proofs.RoundTrip

namespace MiniLisp

/-!
# Literals

An integer literal is an optional minus sign and at least one decimal digit of
any script; a point literal has a point between two runs of digits.  This is
said here by the shape of the text alone.

Reading an integer literal gives its positional value, unless it has too many
digits.  Printing refuses exactly the integers of too many digits, and what it
prints reads back.  A text that is no literal is printed as it was written.
-/

/-- The text of a sign: only a minus is written. -/
def signText (negative : Bool) : List Char :=
  if negative then ['-'] else []

/-- A nonempty run of decimal digits, of any script, with their values. -/
structure IsDigitRun (run : List Char) (digits : List Nat) : Prop where
  nonempty : run ≠ []
  values : List.Forall₂ (fun c digit => Text.digitValue? c = some digit) run digits

/-- An optional minus sign and a run of digits. -/
def IsIntegerLiteral (text : List Char) (negative : Bool) (digits : List Nat) : Prop :=
  ∃ run, text = signText negative ++ run ∧ IsDigitRun run digits

/-- An optional minus sign and two runs of digits with a point between them. -/
def IsPointLiteral (text : List Char) : Prop :=
  ∃ negative whole wholeDigits fraction fractionDigits,
    text = signText negative ++ (whole ++ '.' :: fraction) ∧
      IsDigitRun whole wholeDigits ∧
      IsDigitRun fraction fractionDigits

section Shape

variable {text run : List Char} {digits : List Nat} {negative : Bool}

theorem mapM_digitValue?_eq_some_iff :
    run.mapM Text.digitValue? = some digits ↔
      List.Forall₂ (fun c digit => Text.digitValue? c = some digit) run digits := by
  induction run generalizing digits with
  | nil =>
      simp [eq_comm]
  | cons c rest inductionHypothesis =>
      rw [List.mapM_cons, List.forall₂_cons_left_iff]
      simp only [Option.bind_eq_bind, Option.bind_eq_some_iff, Option.pure_def,
        Option.some.injEq, inductionHypothesis]
      constructor
      · rintro ⟨digit, first, others, later, rfl⟩
        exact ⟨digit, others, first, later, rfl⟩
      · rintro ⟨digit, others, first, later, rfl⟩
        exact ⟨digit, first, others, later, rfl⟩

/-- The values of a text can be taken just if it is a run of digits. -/
theorem digitValues?_eq_some_iff :
    Text.digitValues? run = some digits ↔ IsDigitRun run digits := by
  unfold Text.digitValues?
  split
  · next empty =>
      constructor
      · nofun
      · intro isRun
        exact absurd (List.isEmpty_iff.mp empty) isRun.nonempty
  · next nonempty =>
      rw [mapM_digitValue?_eq_some_iff]
      exact ⟨fun values => ⟨mt List.isEmpty_iff.mpr nonempty, values⟩, fun isRun => isRun.values⟩

theorem signText_append_takeMinus
    (text : List Char) :
    signText (Text.takeMinus text).1 ++ (Text.takeMinus text).2 = text := by
  unfold Text.takeMinus
  split
  · rfl
  · rfl

/-- A minus sign is no digit, so it can be told from the run that follows it. -/
theorem IsDigitRun.takeMinus
    (isRun : IsDigitRun run digits)
    (negative : Bool) :
    Text.takeMinus (signText negative ++ run) = (negative, run) := by
  cases negative with
  | true =>
      rfl
  | false =>
      rcases isRun with ⟨nonempty, values⟩
      cases values with
      | nil =>
          exact absurd rfl nonempty
      | @cons c digit rest others first later =>
          have minusIsNone : Text.digitValue? '-' = none := by
            decide
          refine takeMinus_of_ne ?_ rest
          rintro rfl
          rw [minusIsNone] at first
          cases first

/-- What is read as an integer numeral is an integer literal. -/
theorem integerNumeral?_eq_some_iff :
    integerNumeral? text = some (negative, digits) ↔ IsIntegerLiteral text negative digits := by
  unfold integerNumeral?
  constructor
  · intro numeral
    obtain ⟨values, taken, same⟩ := Option.map_eq_some_iff.mp numeral
    cases same
    exact ⟨_, (signText_append_takeMinus text).symm, digitValues?_eq_some_iff.mp taken⟩
  · rintro ⟨run, rfl, isRun⟩
    simp only [isRun.takeMinus, digitValues?_eq_some_iff.mpr isRun, Option.map_some]

theorem append_of_cutAt
    {isCut : Char → Bool}
    {before after : List Char}
    (cut : Text.cutAt isCut text = (before, some after)) :
    ∃ c, isCut c = true ∧ text = before ++ c :: after := by
  unfold Text.cutAt at cut
  split at cut
  · cases cut
  · next c rest shape =>
      cases cut
      have stops := List.head?_dropWhile_not (fun c => !isCut c) text
      rw [shape] at stops
      refine ⟨c, by simpa using stops, ?_⟩
      rw [← shape, List.takeWhile_append_dropWhile]

/-- What is read as a numeral with a point is a point literal. -/
theorem isPointLiteral_of_pointNumeral?
    {result : Bool × Decimal}
    (numeral : pointNumeral? text = some result) :
    IsPointLiteral text := by
  unfold pointNumeral? at numeral
  rcases signed : Text.takeMinus text with ⟨negative, unsigned⟩
  rcases cut : Text.cutAt (· == '.') unsigned with ⟨whole, fraction?⟩
  simp only [signed, cut] at numeral
  obtain ⟨wholeDigits, wholeTaken, numeral⟩ := Option.bind_eq_some_iff.mp numeral
  obtain ⟨fraction, found, numeral⟩ := Option.bind_eq_some_iff.mp numeral
  obtain ⟨fractionDigits, fractionTaken, -⟩ := Option.bind_eq_some_iff.mp numeral
  subst found
  obtain ⟨point, isPoint, parts⟩ := append_of_cutAt cut
  refine ⟨negative, whole, wholeDigits, fraction, fractionDigits, ?_,
    digitValues?_eq_some_iff.mp wholeTaken, digitValues?_eq_some_iff.mp fractionTaken⟩
  rw [← signText_append_takeMinus text, signed, parts, beq_iff_eq.mp isPoint]

end Shape

/-- The number that digits denote is their positional value. -/
theorem Text.ofDigits_eq_positional
    (digits : List Nat) :
    ofDigits digits = Nat.ofDigits 10 digits.reverse := by
  rw [Nat.ofDigits_eq_foldr, List.foldr_reverse, ofDigits]
  simp only [Nat.cast_id, Nat.add_comm]

section Reading

variable {text : String}

/-- An integer literal denotes its positional value, unless it has too many digits. -/
theorem ofAtom_of_isIntegerLiteral
    (atomic : ∀ c ∈ text.toList, isAtomChar c = true)
    {negative : Bool}
    {digits : List Nat}
    (literal : IsIntegerLiteral text.toList negative digits) :
    Datum.ofAtom text =
      if digits.length ≤ maxDigits then
        .ok (.number (.int (signedInt negative (Nat.ofDigits 10 digits.reverse))))
      else
        .error (.numberTooLarge text) := by
  rw [Datum.ofAtom, dropFinalLineFeed_of_isAtomChar atomic]
  simp only [integerNumeral?_eq_some_iff.mpr literal, Text.ofDigits_eq_positional]

/-- A text that is no literal denotes something that is printed as the text. -/
theorem exists_ofAtom_render_of_not_literal
    (atomic : ∀ c ∈ text.toList, isAtomChar c = true)
    (notInteger : ∀ negative digits, ¬IsIntegerLiteral text.toList negative digits)
    (notPoint : ¬IsPointLiteral text.toList) :
    ∃ datum,
      Datum.ofAtom text = .ok datum ∧ ∀ limit, datum.render (limit + 1) = .ok text := by
  have noInteger : integerNumeral? text.toList = none :=
    Option.eq_none_iff_forall_not_mem.mpr fun (negative, digits) numeral =>
      notInteger negative digits (integerNumeral?_eq_some_iff.mp numeral)
  have noPoint : pointNumeral? text.toList = none :=
    Option.eq_none_iff_forall_not_mem.mpr fun _ numeral =>
      notPoint (isPointLiteral_of_pointNumeral? numeral)
  refine ⟨Datum.ofWord text, ?_, Datum.render_ofWord text⟩
  rw [Datum.ofAtom, dropFinalLineFeed_of_isAtomChar atomic]
  simp only [noInteger, noPoint]

end Reading

section Printing

variable {limit : Nat}

/-- An integer has a text just if it has no more digits than are printed. -/
theorem exists_render_int_iff
    (n : Int) :
    (∃ text, (Datum.number (.int n)).render (limit + 1) = .ok text) ↔
      |n| < 10 ^ maxDigits := by
  have positive : 0 < maxDigits := by
    decide
  rw [exists_render_iff, Datum.printableWithin_int_iff, Int.abs_eq_natAbs]
  -- The bound is a large number that nothing here should compute with.
  generalize maxDigits = count at positive ⊢
  rw [Nat.length_toDigits_le_iff (by decide) positive]
  exact_mod_cast Iff.rfl

/-- Every number is written with decimal digits, and with no more than it needs. -/
theorem exists_decimal
    {n count : Nat}
    (positive : 0 < count)
    (bounded : n < 10 ^ count) :
    ∃ digits : List Nat,
      digits ≠ [] ∧
        (∀ digit ∈ digits, digit < 10) ∧
        digits.length ≤ count ∧
        Text.ofDigits digits = n := by
  by_cases zero : n = 0
  · exact ⟨[0], by simp, by simp, positive, zero.symm⟩
  · refine ⟨(Nat.digits 10 n).reverse, ?_, ?_, ?_, ?_⟩
    · simpa [Nat.digits_eq_nil_iff_eq_zero] using zero
    · intro digit member
      exact Nat.digits_lt_base (by decide) (List.mem_reverse.mp member)
    · rw [List.length_reverse]
      exact (Nat.digits_length_le_iff (by decide) n).mpr bounded
    · rw [Text.ofDigits_eq_positional, List.reverse_reverse, Nat.ofDigits_digits]

/-- The text of an integer reads back as the integer. -/
theorem ofAtom_of_render_int
    {n : Int}
    {text : String}
    (rendered : (Datum.number (.int n)).render (limit + 1) = .ok text) :
    Datum.ofAtom text = .ok (.number (.int n)) := by
  have bounded : n.natAbs < 10 ^ maxDigits := by
    have size := (exists_render_int_iff n).mp ⟨text, rendered⟩
    rw [Int.abs_eq_natAbs] at size
    exact_mod_cast size
  obtain ⟨digits, nonempty, decimal, few, value⟩ := exists_decimal (by decide) bounded
  have signed : signedInt (decide (n < 0)) (Text.ofDigits digits) = n := by
    rw [value, signedInt]
    split
    · next negative =>
        have below := of_decide_eq_true negative
        omega
    · next notNegative =>
        have above := mt decide_eq_true notNegative
        omega
  have spelled : text = n.repr := by
    rw [Datum.render, Number.text] at rendered
    split at rendered
    · cases rendered
      rfl
    · cases rendered
  have read := ofAtom_canonicalNumeral (decide (n < 0)) nonempty decimal few
  rwa [← repr_signedInt _ decimal, signed, String.ofList_toList, ← spelled] at read

end Printing

/--
Reading and printing atoms agree.  An integer literal denotes its signed
positional value up to 4300 digits and is refused beyond; an integer has a text
just if its size is below `10 ^ 4300`, and the text reads back as the integer;
what is neither an integer nor a point literal is printed as it was written.
-/
theorem literals_read_and_print
    (text : String)
    (atomic : ∀ c ∈ text.toList, isAtomChar c = true) :
    (∀ negative digits, IsIntegerLiteral text.toList negative digits →
      Datum.ofAtom text =
        if digits.length ≤ 4300 then
          .ok (.number (.int (signedInt negative (Nat.ofDigits 10 digits.reverse))))
        else
          .error (.numberTooLarge text)) ∧
    (∀ (n : Int) (limit : Nat),
      ((∃ printed, (Datum.number (.int n)).render (limit + 1) = .ok printed) ↔
        |n| < 10 ^ 4300) ∧
      (∀ printed, (Datum.number (.int n)).render (limit + 1) = .ok printed →
        Datum.ofAtom printed = .ok (.number (.int n)))) ∧
    ((∀ negative digits, ¬IsIntegerLiteral text.toList negative digits) →
      ¬IsPointLiteral text.toList →
        ∃ datum,
          Datum.ofAtom text = .ok datum ∧ ∀ limit, datum.render (limit + 1) = .ok text) := by
  have limits : maxDigits = 4300 := rfl
  rw [← limits]
  refine ⟨fun _ _ literal => ofAtom_of_isIntegerLiteral atomic literal, fun n limit => ?_,
    exists_ofAtom_render_of_not_literal atomic⟩
  exact ⟨exists_render_int_iff n, fun _ rendered => ofAtom_of_render_int rendered⟩

/--
A minus sign and three digits of another script denote minus seven, which is
printed in two characters that read back; a minus sign before a letter is a name.
-/
theorem literals_read_and_print_negative :
    (IsIntegerLiteral "-٠٠٧".toList true [0, 0, 7] ∧
      Datum.ofAtom "-٠٠٧" = .ok (.number (.int (-7)))) ∧
    ((Datum.number (.int (-7))).render 1 = .ok "-7" ∧
      Datum.ofAtom "-7" = .ok (.number (.int (-7)))) ∧
    ∃ datum, Datum.ofAtom "-x" = .ok datum ∧ ∀ limit, datum.render (limit + 1) = .ok "-x" := by
  have digitsAtomic : ∀ c ∈ "-٠٠٧".toList, isAtomChar c = true :=
    List.all_eq_true.mp (by rfl)
  have nameAtomic : ∀ c ∈ "-x".toList, isAtomChar c = true :=
    List.all_eq_true.mp (by rfl)
  have literal : IsIntegerLiteral "-٠٠٧".toList true [0, 0, 7] :=
    integerNumeral?_eq_some_iff.mp (by rfl)
  have printed : (Datum.number (.int (-7))).render 1 = .ok "-7" := by
    rfl
  have notInteger (negative : Bool) (digits : List Nat) :
      ¬IsIntegerLiteral "-x".toList negative digits := by
    rw [← integerNumeral?_eq_some_iff]
    nofun
  have notPoint : ¬IsPointLiteral "-x".toList := by
    rintro ⟨negative, whole, wholeDigits, fraction, fractionDigits, same, -, -⟩
    have point : '.' ∈ "-x".toList := by
      rw [same]
      simp
    exact absurd point (by decide)
  obtain ⟨read, numbers, -⟩ := literals_read_and_print "-٠٠٧" digitsAtomic
  obtain ⟨-, -, written⟩ := literals_read_and_print "-x" nameAtomic
  exact ⟨⟨literal, read true [0, 0, 7] literal⟩, ⟨printed, (numbers (-7) 0).2 "-7" printed⟩,
    written notInteger notPoint⟩

end MiniLisp
