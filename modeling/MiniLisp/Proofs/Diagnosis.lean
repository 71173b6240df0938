import Mathlib.Data.List.Infix
import MiniLisp.Proofs.Grammar
import MiniLisp.Proofs.Tokenization

namespace MiniLisp

/-!
# Diagnosis by counting parentheses

What is wrong with a token sequence that should be one expression can be found
without parsing it.  The expression would be the shortest front with as many
left as right parentheses.  An integer numeral of too many digits in it comes
first, then that there is no such front, then that tokens follow it.

The parser agrees with the diagnosis: while it has not completed an expression,
it has seen more left than right parentheses in every front, and the difference
is the number of its open lists.
-/

/-- A front of a token sequence that could be a whole expression by its parentheses. -/
def closesUp (front : List Token) : Bool :=
  !front.isEmpty && front.count .leftParen == front.count .rightParen

/-- The shortest nonempty front with as many left as right parentheses. -/
def closedFront? (tokens : List Token) : Option (List Token) :=
  tokens.inits.find? closesUp

/-- Whether a token is an integer numeral of more digits than can be read. -/
def Token.isOversized : Token → Bool
  | .atom text => MiniLisp.isOversized text.toList
  | _ => false

/-- Tokens left over after an expression are wrong, unless there are none. -/
def leftoverError? : List Token → Option ParseError
  | [] => none
  | leftover => some (.trailingTokens (leftover.map Token.text))

/-- What is wrong with a token sequence that should be one expression, if anything is. -/
def diagnose (tokens : List Token) : Option ParseError :=
  if tokens = [] ∨ tokens.head? = some .rightParen then
    some .unexpectedEnd
  else
    match ((closedFront? tokens).getD tokens).find? Token.isOversized, closedFront? tokens with
    | some token, _ => some (.numberTooLarge token.text)
    | none, none => some .missingClose
    | none, some front => leftoverError? (tokens.drop front.length)

section ClosedFront

variable {front rest : List Token} {token : Token}

theorem closedFront?_eq_none
    (never : ∀ early, early <+: front → closesUp early = false) :
    closedFront? front = none := by
  rw [closedFront?, List.find?_eq_none]
  intro early member
  rw [never early ((List.mem_inits early front).mp member)]
  exact Bool.false_ne_true

/-- The first front that closes up is the closed front, whatever follows. -/
theorem closedFront?_append
    (never : ∀ early, early <+: front → closesUp early = false)
    (closes : closesUp (front ++ [token]) = true) :
    closedFront? (front ++ token :: rest) = some (front ++ [token]) := by
  have before : front.inits.find? closesUp = none := closedFront?_eq_none never
  rw [closedFront?, List.inits_append, List.find?_append, before, List.inits_cons]
  cases rest with
  | nil =>
      simp [closes]
  | cons next later =>
      simp [closes]

/-- A closed front is longer than any front up to which nothing closes up. -/
theorem exists_of_closedFront?_append
    {closed : List Token}
    (never : ∀ early, early <+: front → closesUp early = false)
    (found : closedFront? (front ++ token :: rest) = some closed) :
    ∃ more, closed = front ++ token :: more := by
  have closes : closesUp closed = true := List.find?_some found
  obtain ⟨after, whole⟩ := (List.mem_inits closed _).mp (List.mem_of_find?_eq_some found)
  rcases List.append_eq_append_iff.mp whole with ⟨between, within, _⟩ | ⟨more, beyond, tail⟩
  · have early : closed <+: front := ⟨between, within.symm⟩
    rw [never closed early] at closes
    contradiction
  · cases more with
    | nil =>
        rw [List.append_nil] at beyond
        rw [beyond, never front (List.prefix_refl front)] at closes
        contradiction
    | cons next more =>
        cases tail
        exact ⟨more, beyond⟩

end ClosedFront

namespace Reader

section Counting

variable {limit : Nat} {reader next : Reader} {token : Token} {tokens front : List Token}

@[simp] theorem length_opened_add
    (reader : Reader)
    (datum : Datum) :
    (reader.add datum).opened.length = reader.opened.length := by
  rcases reader with ⟨finished, _ | ⟨items, outer⟩⟩
  · rfl
  · rfl

/-- A token opens a list, closes one, or does neither. -/
theorem length_opened_feed
    (fed : reader.feed limit token = .ok next) :
    [token].count .leftParen + reader.opened.length =
      [token].count .rightParen + next.opened.length := by
  rcases feed_cases fed with
    ⟨rfl, room, rfl⟩ | ⟨items, outer, rfl, shape, rfl⟩ | ⟨text, datum, rfl, denotes, rfl⟩
  · simp
    omega
  · simp [shape]
    omega
  · simp

/-- The open lists are the left parentheses that no right one has closed. -/
theorem length_opened_feedAll
    (fed : reader.feedAll limit tokens = .ok next) :
    tokens.count .leftParen + reader.opened.length =
      tokens.count .rightParen + next.opened.length := by
  induction tokens generalizing reader with
  | nil =>
      cases fed
      rfl
  | cons token rest inductionHypothesis =>
      obtain ⟨middle, first, after⟩ := feedAll_cons_inv fed
      have one := length_opened_feed first
      have others := inductionHypothesis after
      rw [← List.singleton_append, List.count_append, List.count_append]
      omega

theorem count_leftParen_of_feedAll
    (fed : start.feedAll limit tokens = .ok next) :
    tokens.count .leftParen = tokens.count .rightParen + next.opened.length :=
  length_opened_feedAll fed

/-- A reader that has completed nothing has a list open, unless it has taken nothing. -/
theorem opened_ne_nil
    (fed : start.feedAll limit front = .ok next)
    (none : next.finished = [])
    (nonempty : front ≠ []) :
    next.opened ≠ [] := by
  intro closed
  have taken := (Taken.start limit).feedAll fed
  obtain ⟨finished, opened⟩ := next
  cases none
  cases closed
  cases taken with
  | complete derived _ =>
      cases derived
      exact nonempty rfl

/-- While nothing is complete, no front closes up. -/
theorem closesUp_eq_false
    (fed : start.feedAll limit front = .ok next)
    (none : next.finished = [])
    {early : List Token}
    (isFront : early <+: front) :
    closesUp early = false := by
  obtain ⟨later, rfl⟩ := isFront
  obtain ⟨middle, upTo, beyond⟩ := feedAll_append_inv fed
  have middleNone := finished_eq_nil_of_feedAll beyond none
  by_cases nonempty : early = []
  · rw [nonempty]
    rfl
  · have opened := opened_ne_nil upTo middleNone nonempty
    have counts := count_leftParen_of_feedAll upTo
    have positive := List.length_pos_iff.mpr opened
    have unequal : early.count .leftParen ≠ early.count .rightParen := by
      omega
    simp [closesUp, unequal]

theorem isOversized_of_feed
    (proper : ∀ text, token = .atom text → IsAtomText text)
    (fed : reader.feed limit token = .ok next) :
    token.isOversized = false := by
  cases token with
  | atom text =>
      by_contra oversized
      rw [Bool.not_eq_false, Token.isOversized, ← (proper text rfl).dropFinalLineFeed]
        at oversized
      have refused := Datum.ofAtom_of_isOversized oversized
      simp [feed, refused] at fed
  | _ =>
      rfl

/-- Among tokens that are taken, there is no integer numeral of too many digits. -/
theorem isOversized_of_feedAll
    (proper : ∀ text, .atom text ∈ tokens → IsAtomText text)
    (fed : reader.feedAll limit tokens = .ok next) :
    ∀ token ∈ tokens, token.isOversized = false := by
  induction tokens generalizing reader with
  | nil =>
      simp
  | cons token rest inductionHypothesis =>
      obtain ⟨middle, first, after⟩ := feedAll_cons_inv fed
      intro other member
      rcases List.mem_cons.mp member with rfl | inRest
      · refine isOversized_of_feed (fun text shape => proper text ?_) first
        rw [shape]
        exact List.mem_cons_self
      · exact inductionHypothesis (fun text inside => proper text (by simp [inside])) after
          other inRest

theorem head?_ne_rightParen
    (fed : start.feedAll limit tokens = .ok next) :
    tokens.head? ≠ some .rightParen := by
  intro begins
  obtain ⟨rest, rfl⟩ := List.head?_eq_some_iff.mp begins
  obtain ⟨middle, first, _⟩ := feedAll_cons_inv fed
  cases first

end Counting

end Reader

section Verdicts

variable {front rest : List Token} {token : Token}

theorem find?_isOversized_eq_none
    (fits : ∀ token ∈ front, token.isOversized = false) :
    front.find? Token.isOversized = none := by
  rw [List.find?_eq_none]
  intro token member
  rw [fits token member]
  exact Bool.false_ne_true

/-- What the diagnosis says depends on the closed front if the tokens begin an expression. -/
theorem diagnose_of_begins
    {tokens : List Token}
    (nonempty : tokens ≠ [])
    (begins : tokens.head? ≠ some .rightParen) :
    diagnose tokens =
      match ((closedFront? tokens).getD tokens).find? Token.isOversized, closedFront? tokens with
      | some token, _ => some (.numberTooLarge token.text)
      | none, none => some .missingClose
      | none, some front => leftoverError? (tokens.drop front.length) := by
  rw [diagnose, if_neg]
  rintro (empty | closing)
  · exact nonempty empty
  · exact begins closing

theorem diagnose_of_never_closesUp
    (nonempty : front ≠ [])
    (begins : front.head? ≠ some .rightParen)
    (never : ∀ early, early <+: front → closesUp early = false)
    (fits : ∀ token ∈ front, token.isOversized = false) :
    diagnose front = some .missingClose := by
  rw [diagnose_of_begins nonempty begins, closedFront?_eq_none never, Option.getD_none,
    find?_isOversized_eq_none fits]

theorem diagnose_of_isOversized
    (begins : (front ++ token :: rest).head? ≠ some .rightParen)
    (never : ∀ early, early <+: front → closesUp early = false)
    (fits : ∀ token ∈ front, token.isOversized = false)
    (oversized : token.isOversized = true) :
    diagnose (front ++ token :: rest) = some (.numberTooLarge token.text) := by
  have firstFound (more : List Token) :
      (front ++ token :: more).find? Token.isOversized = some token := by
    rw [List.find?_append, find?_isOversized_eq_none fits, List.find?_cons_of_pos oversized]
    rfl
  rw [diagnose_of_begins (by simp) begins]
  cases found : closedFront? (front ++ token :: rest) with
  | none =>
      rw [Option.getD_none, firstFound]
  | some closed =>
      obtain ⟨more, rfl⟩ := exists_of_closedFront?_append never found
      rw [Option.getD_some, firstFound]

/-- A front closes up without an integer numeral of too many digits in it. -/
theorem diagnose_of_closesUp
    (begins : (front ++ token :: rest).head? ≠ some .rightParen)
    (never : ∀ early, early <+: front → closesUp early = false)
    (closes : closesUp (front ++ [token]) = true)
    (fits : ∀ other ∈ front ++ [token], other.isOversized = false) :
    diagnose (front ++ token :: rest) = leftoverError? rest := by
  have leftover : (front ++ token :: rest).drop (front ++ [token]).length = rest := by
    have whole : front ++ token :: rest = (front ++ [token]) ++ rest := by
      simp
    rw [whole, List.drop_left]
  rw [diagnose_of_begins (by simp) begins, closedFront?_append never closes, Option.getD_some,
    find?_isOversized_eq_none fits]
  exact congrArg leftoverError? leftover

end Verdicts

namespace Reader

section Stops

variable {limit : Nat} {front rest : List Token} {token : Token} {last : Reader}

/-- Reading to the end without a complete expression: there was nothing, or a list is open. -/
theorem diagnose_of_ended
    {tokens : List Token}
    (proper : ∀ text, .atom text ∈ tokens → IsAtomText text)
    (fed : start.feedAll limit tokens = .ok last)
    (none : last.finished = []) :
    diagnose tokens =
      some (if last.opened.isEmpty then .unexpectedEnd else .missingClose) := by
  by_cases nonempty : tokens = []
  · subst nonempty
    cases fed
    rfl
  · have opened : last.opened.isEmpty = false := by
      simpa using opened_ne_nil fed none nonempty
    rw [opened]
    exact diagnose_of_never_closesUp nonempty (head?_ne_rightParen fed)
      (fun early isFront => closesUp_eq_false fed none isFront)
      (isOversized_of_feedAll proper fed)

/-- A token that cannot be taken opens a list too many, or is what the diagnosis says. -/
theorem diagnose_of_failed
    {fault : Fault}
    (proper : ∀ text, .atom text ∈ front ++ token :: rest → IsAtomText text)
    (fed : start.feedAll limit front = .ok last)
    (none : last.finished = [])
    (fails : last.feed limit token = .error fault) :
    fault = .tooDeep ∧ limit < (front ++ token :: rest).count .leftParen ∨
      ∃ error, fault = .parse error ∧ diagnose (front ++ token :: rest) = some error := by
  have never (early : List Token) (isFront : early <+: front) : closesUp early = false :=
    closesUp_eq_false fed none isFront
  rcases feed_error_cases fails with
    ⟨rfl, full, rfl⟩ | ⟨rfl, closed, rfl⟩ | ⟨text, error, rfl, refused, rfl⟩
  · -- All open lists began with a left parenthesis of the front, and here is one more.
    have counts := count_leftParen_of_feedAll fed
    refine .inl ⟨rfl, ?_⟩
    rw [List.count_append, List.count_cons_self]
    omega
  · -- No list is open and nothing is complete, so nothing was taken.
    have nothing : front = [] := by
      by_contra nonempty
      exact opened_ne_nil fed none nonempty closed
    subst nothing
    exact .inr ⟨_, rfl, rfl⟩
  · obtain ⟨oversized, rfl⟩ := Datum.isOversized_of_ofAtom_error refused
    rw [(proper text (by simp)).dropFinalLineFeed] at oversized
    have begins : (front ++ .atom text :: rest).head? ≠ some .rightParen := by
      have frontBegins := head?_ne_rightParen fed
      cases front with
      | nil =>
          simp
      | cons first others =>
          simpa using frontBegins
    have frontFits :=
      isOversized_of_feedAll (fun other member => proper other (by simp [member])) fed
    exact .inr ⟨_, rfl, diagnose_of_isOversized begins never frontFits oversized⟩

/-- A token that completes an expression closes the front, and what follows is left over. -/
theorem diagnose_of_completed
    {datum : Datum}
    (proper : ∀ text, .atom text ∈ front ++ token :: rest → IsAtomText text)
    (fed : start.feedAll limit front = .ok last)
    (none : last.finished = [])
    (completes : last.feed limit token = .ok ⟨[datum], []⟩) :
    diagnose (front ++ token :: rest) = leftoverError? rest := by
  have fedAll : start.feedAll limit (front ++ [token]) = .ok ⟨[datum], []⟩ :=
    (feedAll_append fed).trans (feedAll_cons completes)
  have begins : (front ++ token :: rest).head? ≠ some .rightParen := by
    have frontBegins := head?_ne_rightParen fedAll
    cases front with
    | nil =>
        simpa using frontBegins
    | cons first others =>
        simpa using frontBegins
  have closes : closesUp (front ++ [token]) = true := by
    have counts := count_leftParen_of_feedAll fedAll
    simp [closesUp, counts]
  refine diagnose_of_closesUp begins
    (fun early isFront => closesUp_eq_false fed none isFront) closes ?_
  refine isOversized_of_feedAll (fun text member => proper text ?_) fedAll
  simp only [List.mem_append, List.mem_cons, List.not_mem_nil, or_false] at member ⊢
  exact member.imp_right Or.inl

end Stops

end Reader

/--
The parser classifies its errors exactly as counting parentheses does.  Unless
lists are opened beyond the limit, a source text has the parse error that the
diagnosis of its tokens gives, and is an expression just if the diagnosis gives
none.
-/
theorem parse_agrees_with_diagnosis (limit : Nat) (source : String) :
    parse limit source = .error .tooDeep ∧ limit < (tokenize source).count .leftParen ∨
      (∀ error,
        parse limit source = .error (.parse error) ↔
          diagnose (tokenize source) = some error) ∧
        ((∃ datum, parse limit source = .ok datum) ↔
          diagnose (tokenize source) = none) := by
  have proper (text : String) (member : .atom text ∈ tokenize source) : IsAtomText text :=
    isAtomText_of_mem_tokenize member
  have stop : Reader.Stop limit .start (tokenize source) (parseOne limit (tokenize source)) :=
    Reader.stop_untilFinished rfl
  rw [parse]
  -- From here on only the tokens matter, and how reading them stops.
  generalize tokenize source = tokens at proper stop ⊢
  generalize parseOne limit tokens = outcome at stop ⊢
  cases stop with
  | ended fed none =>
      rw [Reader.diagnose_of_ended proper fed none]
      simp
  | failed fed none fails =>
      rcases Reader.diagnose_of_failed proper fed none fails with
        ⟨rfl, tooMany⟩ | ⟨error, rfl, diagnosed⟩
      · exact .inl ⟨rfl, tooMany⟩
      · rw [diagnosed]
        simp
  | @completed front rest token last datum fed none completes =>
      rw [Reader.diagnose_of_completed proper fed none completes]
      cases rest with
      | nil =>
          simp [leftoverError?]
      | cons next later =>
          simp [leftoverError?]

end MiniLisp
