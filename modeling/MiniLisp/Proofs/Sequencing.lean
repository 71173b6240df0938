import MiniLisp.Proofs.Grammar
import MiniLisp.Proofs.Scanning

namespace MiniLisp

/-!
# Expressions of composed texts

What a reader does with the next tokens depends on the lists that are open, and not
on the expressions that are complete.  So once a front of a token sequence leaves no
list open, the rest is read as if it stood alone, be it well-formed or not, and its
expressions come after those of the front.

Reading all expressions of a text therefore goes along with joining texts by gaps,
and is reading one expression wherever there is just one.
-/

namespace Reader

/-- A reader that had expressions complete before it began. -/
def after (reader : Reader) (earlier : List Datum) : Reader :=
  ⟨reader.finished ++ earlier, reader.opened⟩

theorem after_add
    (reader : Reader)
    (earlier : List Datum)
    (datum : Datum) :
    (reader.after earlier).add datum = (reader.add datum).after earlier := by
  rcases reader with ⟨finished, _ | ⟨items, outer⟩⟩
  · rfl
  · rfl

/-- Earlier expressions make no difference to what a token does. -/
theorem feed_after
    (limit : Nat)
    (reader : Reader)
    (earlier : List Datum)
    (token : Token) :
    (reader.after earlier).feed limit token =
      (reader.feed limit token).map fun next => next.after earlier := by
  cases token with
  | leftParen =>
      by_cases room : reader.opened.length < limit
      · simp only [feed, after, room, ↓reduceIte]
        rfl
      · simp only [feed, after, room, ↓reduceIte]
        rfl
  | rightParen =>
      rcases reader with ⟨finished, _ | ⟨items, outer⟩⟩
      · rfl
      · exact congrArg Except.ok (after_add ⟨finished, outer⟩ earlier (.list items.reverse))
  | atom text =>
      simp only [feed]
      cases Datum.ofAtom text with
      | error error =>
          rfl
      | ok datum =>
          exact congrArg Except.ok (after_add reader earlier datum)

/-- Earlier expressions come first in what is read to the end, and make no other difference. -/
theorem untilEnd_after
    (limit : Nat)
    (reader : Reader)
    (earlier : List Datum)
    (tokens : List Token) :
    (reader.after earlier).untilEnd limit tokens =
      (reader.untilEnd limit tokens).map (earlier.reverse ++ ·) := by
  induction tokens generalizing reader with
  | nil =>
      rcases reader with ⟨finished, _ | ⟨items, outer⟩⟩
      · exact congrArg Except.ok List.reverse_append
      · rfl
  | cons token rest inductionHypothesis =>
      rw [untilEnd, untilEnd, feed_after]
      cases reader.feed limit token with
      | error fault =>
          rfl
      | ok next =>
          exact inductionHypothesis next

/-- After a front that leaves no list open, the rest is read as if it stood alone. -/
theorem untilEnd_append_of_complete
    {limit : Nat}
    {front : List Token}
    {finished : List Datum}
    (fed : start.feedAll limit front = .ok ⟨finished, []⟩)
    (rest : List Token) :
    start.untilEnd limit (front ++ rest) =
      (start.untilEnd limit rest).map (finished.reverse ++ ·) := by
  rw [untilEnd_append fed]
  exact untilEnd_after limit start finished rest

end Reader

section Texts

variable {limit : Nat} {source : String}

/-- A text that can be read, a gap and any other text. -/
theorem parseMany_append
    {gap : String}
    {expressions : List Datum}
    (read : parseMany limit source = .ok expressions)
    (isGap : IsGap gap)
    (other : String) :
    parseMany limit (source ++ gap ++ other) =
      (parseMany limit other).map (expressions ++ ·) := by
  obtain ⟨finished, fed, rfl⟩ := Reader.feedAll_of_untilEnd read
  rw [parseMany, isGap.tokenize_append]
  exact Reader.untilEnd_append_of_complete fed (tokenize other)

/-- The first expression is never refused because of what follows it. -/
theorem parseOne_ne_trailingTokens
    (limit : Nat)
    (tokens : List Token)
    (leftover : List String) :
    parseOne limit tokens ≠ .error (.parse (.trailingTokens leftover)) := by
  intro fails
  have stop : Reader.Stop limit .start tokens (parseOne limit tokens) :=
    Reader.stop_untilFinished rfl
  generalize parseOne limit tokens = outcome at stop fails
  cases stop with
  | ended fed none =>
      split at fails
      · cases fails
      · cases fails
  | failed fed none tokenFails =>
      cases fails
      rcases Reader.feed_error_cases tokenFails with
        ⟨-, -, ⟨⟩⟩ | ⟨-, -, ⟨⟩⟩ | ⟨text, error, -, refused, ⟨⟩⟩
      cases (Datum.isOversized_of_ofAtom_error refused).2
  | completed fed none completes =>
      cases fails

/-- Tokens are left over after an expression that was read. -/
theorem exists_parseOne_of_trailingTokens
    {leftover : List String}
    (fails : parse limit source = .error (.parse (.trailingTokens leftover))) :
    ∃ expression rest,
      parseOne limit (tokenize source) = .ok (expression, rest) ∧
        rest.map Token.text = leftover := by
  unfold parse at fails
  split at fails
  · next fault first =>
      cases fails
      exact absurd first (parseOne_ne_trailingTokens limit _ leftover)
  · cases fails
  · next expression rest _ first =>
      cases fails
      exact ⟨expression, rest, first, rfl⟩

/-- What is left over after the first expression is read as if it were a text of its own. -/
theorem parseMany_of_parseOne
    {expression : Datum}
    {rest : List Token}
    (first : parseOne limit (tokenize source) = .ok (expression, rest)) :
    parseMany limit source =
      (parseMany limit (" ".intercalate (rest.map Token.text))).map (expression :: ·) := by
  obtain ⟨shallow, used, whole, derived⟩ := Derives.of_parseOne first
  have proper : ProperTokens rest := by
    intro text member
    apply properTokens_tokenize source
    rw [whole]
    exact List.mem_append_right used member
  have fed : Reader.start.feedAll limit used = .ok ⟨[expression], []⟩ :=
    derived.feedAll .start shallow
  rw [parseMany, parseMany, proper.tokenize_intercalate, whole]
  exact Reader.untilEnd_append_of_complete fed rest

end Texts

/--
Reading all expressions of a text is a homomorphism, and agrees with reading one.
Behind a text that can be read, another one after a gap adds its expressions or
stops with its fault.  A text is one expression just if this is all that can be read
in it.  And if tokens are left over after the first expression, then reading all of
the text gives this expression and what the leftover tokens give, joined by spaces.
-/
theorem parseMany_composes
    (limit : Nat) :
    (∀ source gap other expressions,
      parseMany limit source = .ok expressions →
        IsGap gap →
          parseMany limit (source ++ gap ++ other) =
            (parseMany limit other).map (expressions ++ ·)) ∧
    (∀ source expression,
      parse limit source = .ok expression ↔ parseMany limit source = .ok [expression]) ∧
    (∀ source leftover,
      parse limit source = .error (.parse (.trailingTokens leftover)) →
        ∃ expression rest,
          parseOne limit (tokenize source) = .ok (expression, rest) ∧
            rest.map Token.text = leftover ∧
            parseMany limit source =
              (parseMany limit (" ".intercalate leftover)).map (expression :: ·)) := by
  refine ⟨?_, fun _ _ => parse_eq_ok_iff_parseMany, ?_⟩
  · intro source gap other expressions read isGap
    exact parseMany_append read isGap other
  · intro source leftover fails
    obtain ⟨expression, rest, first, rfl⟩ := exists_parseOne_of_trailingTokens fails
    exact ⟨expression, rest, first, rfl, parseMany_of_parseOne first⟩

/-- Two expressions and a list that is never closed, after a gap of two blanks and left over. -/
theorem parseMany_composes_unclosed :
    let gap := "\n\t"
    (parseMany 1 "true ()" = .ok [.bool true, .list []] ∧
      parseMany 1 ("true ()" ++ gap ++ "(x") = .error (.parse .missingClose)) ∧
    (parse 1 "x" = .ok (.name "x") ∧ parseMany 1 "x" = .ok [.name "x"]) ∧
    (parse 1 "() (x" = .error (.parse (.trailingTokens ["(", "x"])) ∧
      ∃ expression rest,
        parseOne 1 (tokenize "() (x") = .ok (expression, rest) ∧
          rest.map Token.text = ["(", "x"] ∧
          parseMany 1 "() (x" =
            (parseMany 1 (" ".intercalate ["(", "x"])).map (expression :: ·)) := by
  intro gap
  obtain ⟨joins, agrees, goesOn⟩ := parseMany_composes 1
  have isGap : IsGap gap := by decide
  have both : parseMany 1 "true ()" = .ok [.bool true, .list []] := rfl
  have single : parse 1 "x" = .ok (.name "x") := rfl
  have trailing : parse 1 "() (x" = .error (.parse (.trailingTokens ["(", "x"])) := rfl
  exact ⟨⟨both, joins _ gap "(x" _ both isGap⟩, ⟨single, (agrees _ _).mp single⟩,
    ⟨trailing, goesOn _ _ trailing⟩⟩

end MiniLisp
