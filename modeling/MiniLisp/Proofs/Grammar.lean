import Mathlib.Data.Set.Subsingleton
import MiniLisp.Datum.Parser
import MiniLisp.Proofs.Atom

namespace MiniLisp

/-!
# The grammar of expressions

An expression is an atom that denotes something, or a sequence of expressions
between parentheses.  `Derives` is this grammar, with the datum that each
derivation builds.

A reader keeps complete expressions and open lists.  `Reader.Taken` says which
tokens it has taken on the way: derivations of the complete expressions, then
for each open list its left parenthesis and derivations of its items.  One token
preserves this, so every run does, and a run that ends with one complete
expression has derived it.  Conversely a derivation is a run.
-/

mutual

/-- Tokens that are one expression, with the datum they denote. -/
inductive Derives : List Token → Datum → Prop where
  | atom
      {text : String}
      {datum : Datum}
      (denotes : Datum.ofAtom text = .ok datum) :
      Derives [.atom text] datum
  | list
      {tokens : List Token}
      {items : List Datum}
      (sequence : DerivesAll tokens items) :
      Derives (.leftParen :: tokens ++ [.rightParen]) (.list items)

/-- Tokens that are a sequence of expressions, with the data they denote. -/
inductive DerivesAll : List Token → List Datum → Prop where
  | nil : DerivesAll [] []
  | cons
      {first rest : List Token}
      {datum : Datum}
      {items : List Datum}
      (head : Derives first datum)
      (tail : DerivesAll rest items) :
      DerivesAll (first ++ rest) (datum :: items)

end

namespace DerivesAll

theorem singleton
    {tokens : List Token}
    {datum : Datum}
    (derived : Derives tokens datum) :
    DerivesAll tokens [datum] := by
  have sequence := cons derived .nil
  rwa [List.append_nil] at sequence

/-- A sequence of one expression is that expression. -/
theorem of_singleton
    {tokens : List Token}
    {datum : Datum}
    (derived : DerivesAll tokens [datum]) :
    Derives tokens datum := by
  cases derived with
  | cons head tail =>
      cases tail with
      | nil =>
          rwa [List.append_nil]

theorem append
    {first : List Token}
    {items : List Datum} :
    DerivesAll first items →
      ∀ {second : List Token} {others : List Datum},
        DerivesAll second others →
          DerivesAll (first ++ second) (items ++ others)
  | .nil, _, _, after => after
  | .cons head tail, _, _, after => by
      rw [List.append_assoc]
      exact .cons head (append tail after)

end DerivesAll

namespace Datum

mutual

/-- How many lists are nested in a datum; procedures are opaque. -/
def nesting : Datum → Nat
  | .list items => nestingIn items + 1
  | _ => 0

/-- How many lists are nested in the data of a list. -/
def nestingIn : List Datum → Nat
  | [] => 0
  | item :: rest => max item.nesting (nestingIn rest)

end

theorem nestingIn_append
    (items others : List Datum) :
    nestingIn (items ++ others) = max (nestingIn items) (nestingIn others) := by
  induction items with
  | nil =>
      simp [nestingIn]
  | cons item rest inductionHypothesis =>
      simp [nestingIn, inductionHypothesis, max_assoc]

end Datum

theorem Datum.nesting_ofAtom
    {text : String}
    {datum : Datum}
    (denotes : Datum.ofAtom text = .ok datum) :
    datum.nesting = 0 := by
  cases Datum.denotes_of_ofAtom denotes with
  | integer numeral few =>
      rfl
  | float notInteger numeral =>
      rfl
  | word notInteger notFloat =>
      unfold Datum.ofWord
      split
      · rfl
      · split
        · rfl
        · split <;> rfl

namespace Reader

/-- Everything that taking one token can do. -/
theorem feed_cases
    {limit : Nat}
    {reader next : Reader}
    {token : Token}
    (fed : reader.feed limit token = .ok next) :
    (token = .leftParen ∧
        reader.opened.length < limit ∧
        next = ⟨reader.finished, [] :: reader.opened⟩) ∨
      (∃ items outer,
        token = .rightParen ∧
          reader.opened = items :: outer ∧
          next = Reader.add ⟨reader.finished, outer⟩ (.list items.reverse)) ∨
      (∃ text datum,
        token = .atom text ∧
          Datum.ofAtom text = .ok datum ∧
          next = reader.add datum) := by
  cases token with
  | leftParen =>
      simp only [feed] at fed
      split at fed
      · next room =>
          cases fed
          exact .inl ⟨rfl, room, rfl⟩
      · cases fed
  | rightParen =>
      simp only [feed] at fed
      split at fed
      · cases fed
      · next items outer shape =>
          cases fed
          exact .inr (.inl ⟨items, outer, rfl, shape, rfl⟩)
  | atom text =>
      simp only [feed] at fed
      split at fed
      · next datum denotes =>
          cases fed
          exact .inr (.inr ⟨text, datum, rfl, denotes, rfl⟩)
      · cases fed

/-- Everything that can be wrong with one token. -/
theorem feed_error_cases
    {limit : Nat}
    {reader : Reader}
    {token : Token}
    {fault : Fault}
    (fails : reader.feed limit token = .error fault) :
    (token = .leftParen ∧ limit ≤ reader.opened.length ∧ fault = .tooDeep) ∨
      (token = .rightParen ∧ reader.opened = [] ∧ fault = .parse .unexpectedEnd) ∨
      (∃ text error,
        token = .atom text ∧
          Datum.ofAtom text = .error error ∧
          fault = .parse error) := by
  cases token with
  | leftParen =>
      simp only [feed] at fails
      split at fails
      · cases fails
      · next full =>
          cases fails
          exact .inl ⟨rfl, Nat.le_of_not_lt full, rfl⟩
  | rightParen =>
      simp only [feed] at fails
      split at fails
      · next closed =>
          cases fails
          exact .inr (.inl ⟨rfl, closed, rfl⟩)
      · cases fails
  | atom text =>
      simp only [feed] at fails
      split at fails
      · cases fails
      · next error refused =>
          cases fails
          exact .inr (.inr ⟨text, error, rfl, refused, rfl⟩)

/-- The tokens that a reader has taken within a limit of open lists. -/
inductive Taken (limit : Nat) : Reader → List Token → Prop where
  | complete
      {finished : List Datum}
      {tokens : List Token}
      (derived : DerivesAll tokens finished.reverse)
      (shallow : Datum.nestingIn finished.reverse ≤ limit) :
      Taken limit ⟨finished, []⟩ tokens
  | opened
      {finished items : List Datum}
      {outer : List (List Datum)}
      {before tokens : List Token}
      (around : Taken limit ⟨finished, outer⟩ before)
      (derived : DerivesAll tokens items.reverse)
      (shallow : Datum.nestingIn items.reverse + (outer.length + 1) ≤ limit) :
      Taken limit ⟨finished, items :: outer⟩ (before ++ .leftParen :: tokens)

theorem Taken.length_opened_le
    {limit : Nat}
    {reader : Reader}
    {tokens : List Token}
    (taken : Taken limit reader tokens) :
    reader.opened.length ≤ limit := by
  cases taken with
  | complete _ _ =>
      exact Nat.zero_le limit
  | opened outside derived shallow =>
      simp only [List.length_cons]
      omega

/-- A reader that adds an expression has taken the tokens of the expression too. -/
theorem Taken.add
    {limit : Nat}
    {reader : Reader}
    {before tokens : List Token}
    {datum : Datum}
    (taken : Taken limit reader before)
    (derived : Derives tokens datum)
    (shallow : datum.nesting + reader.opened.length ≤ limit) :
    Taken limit (reader.add datum) (before ++ tokens) := by
  cases taken with
  | @complete finished _ finishedDerived finishedShallow =>
      refine .complete ?_ ?_
      · rw [List.reverse_cons]
        exact finishedDerived.append (.singleton derived)
      · rw [List.reverse_cons, Datum.nestingIn_append]
        simp [Datum.nestingIn] at shallow ⊢
        omega
  | @opened finished items outer around _ outside itemsDerived itemsShallow =>
      rw [List.append_assoc, List.cons_append]
      refine .opened outside ?_ ?_
      · rw [List.reverse_cons]
        exact itemsDerived.append (.singleton derived)
      · rw [List.reverse_cons, Datum.nestingIn_append]
        simp [Datum.nestingIn] at shallow ⊢
        omega

/-- Taking one token keeps the account of what was taken. -/
theorem Taken.feed
    {limit : Nat}
    {reader next : Reader}
    {before : List Token}
    {token : Token}
    (taken : Taken limit reader before)
    (fed : reader.feed limit token = .ok next) :
    Taken limit next (before ++ [token]) := by
  rcases feed_cases fed with
    ⟨rfl, room, rfl⟩ | ⟨items, outer, rfl, shape, rfl⟩ | ⟨text, datum, rfl, denotes, rfl⟩
  · refine .opened taken .nil ?_
    simp only [List.reverse_nil, Datum.nestingIn]
    omega
  · cases taken with
    | complete _ _ =>
        cases shape
    | opened outside derived shallow =>
        -- The innermost list is closed: from outside it, its tokens are one expression.
        cases shape
        rw [List.append_assoc]
        refine outside.add (.list derived) ?_
        simp only [Datum.nesting]
        omega
  · have room := taken.length_opened_le
    refine taken.add (.atom denotes) ?_
    rw [Datum.nesting_ofAtom denotes]
    omega

theorem Taken.start (limit : Nat) : Taken limit .start [] :=
  .complete .nil (Nat.zero_le limit)

/-- Takes tokens one after the other. -/
def feedAll (limit : Nat) (reader : Reader) (tokens : List Token) : Except Fault Reader :=
  tokens.foldlM (feed limit) reader

section Feeding

variable {limit : Nat} {reader next final : Reader} {token : Token} {tokens rest : List Token}

theorem feedAll_cons
    (fed : reader.feed limit token = .ok next) :
    reader.feedAll limit (token :: rest) = next.feedAll limit rest := by
  rw [feedAll, List.foldlM_cons, fed]
  rfl

theorem feedAll_append
    (fed : reader.feedAll limit tokens = .ok next) :
    reader.feedAll limit (tokens ++ rest) = next.feedAll limit rest := by
  rw [feedAll] at fed
  rw [feedAll, List.foldlM_append, fed]
  rfl

theorem feedAll_cons_inv
    (fed : reader.feedAll limit (token :: rest) = .ok final) :
    ∃ next, reader.feed limit token = .ok next ∧ next.feedAll limit rest = .ok final := by
  rw [feedAll, List.foldlM_cons] at fed
  cases first : reader.feed limit token with
  | error fault =>
      rw [first] at fed
      cases fed
  | ok next =>
      rw [first] at fed
      exact ⟨next, rfl, fed⟩

theorem feedAll_append_inv
    (fed : reader.feedAll limit (tokens ++ rest) = .ok final) :
    ∃ next, reader.feedAll limit tokens = .ok next ∧ next.feedAll limit rest = .ok final := by
  induction tokens generalizing reader with
  | nil =>
      exact ⟨reader, rfl, fed⟩
  | cons token others inductionHypothesis =>
      obtain ⟨middle, first, after⟩ := feedAll_cons_inv fed
      obtain ⟨next, upTo, beyond⟩ := inductionHypothesis after
      exact ⟨next, (feedAll_cons first).trans upTo, beyond⟩

/-- Taking tokens one after the other keeps the account of what was taken. -/
theorem Taken.feedAll
    {before : List Token}
    (taken : Taken limit reader before)
    (fed : reader.feedAll limit tokens = .ok final) :
    Taken limit final (before ++ tokens) := by
  induction tokens generalizing reader before with
  | nil =>
      cases fed
      rwa [List.append_nil]
  | cons token rest inductionHypothesis =>
      obtain ⟨next, first, after⟩ := feedAll_cons_inv fed
      have result := inductionHypothesis (taken.feed first) after
      rwa [List.append_assoc] at result

end Feeding

end Reader

mutual

/-- Feeding a reader the tokens of an expression adds the expression. -/
theorem Derives.feedAll
    {limit : Nat}
    {tokens : List Token}
    {datum : Datum} :
    Derives tokens datum →
      ∀ reader : Reader,
        datum.nesting + reader.opened.length ≤ limit →
          reader.feedAll limit tokens = .ok (reader.add datum)
  | .atom denotes, reader, _ => by
      refine Reader.feedAll_cons ?_
      simp only [Reader.feed, denotes]
  | @Derives.list inner items sequence, reader, shallow => by
      have shallowItems : Datum.nestingIn items + (reader.opened.length + 1) ≤ limit := by
        simp only [Datum.nesting] at shallow
        omega
      have opening :
          reader.feed limit .leftParen = .ok ⟨reader.finished, [] :: reader.opened⟩ := by
        simp only [Reader.feed]
        exact if_pos (by omega)
      have inside := DerivesAll.feedAll sequence reader.finished [] reader.opened shallowItems
      rw [List.cons_append, Reader.feedAll_cons opening, Reader.feedAll_append inside]
      refine Reader.feedAll_cons ?_
      simp only [Reader.feed, List.append_nil, List.reverse_reverse]

/-- Feeding a reader the tokens of a sequence adds its expressions to the innermost open list. -/
theorem DerivesAll.feedAll
    {limit : Nat}
    {tokens : List Token}
    {items : List Datum} :
    DerivesAll tokens items →
      ∀ (finished before : List Datum) (outer : List (List Datum)),
        Datum.nestingIn items + (outer.length + 1) ≤ limit →
          Reader.feedAll limit ⟨finished, before :: outer⟩ tokens =
            .ok ⟨finished, (items.reverse ++ before) :: outer⟩
  | .nil, _, _, _, _ => rfl
  | @DerivesAll.cons first rest datum items head tail, finished, before, outer, shallow => by
      simp only [Datum.nestingIn] at shallow
      have headShallow : datum.nesting + (outer.length + 1) ≤ limit := by
        omega
      have tailShallow : Datum.nestingIn items + (outer.length + 1) ≤ limit := by
        omega
      have headFed := Derives.feedAll head ⟨finished, before :: outer⟩ headShallow
      have tailFed := DerivesAll.feedAll tail finished (datum :: before) outer tailShallow
      rw [Reader.feedAll_append headFed]
      rw [List.reverse_cons, List.append_assoc]
      exact tailFed

end

/-- Feeding a reader without open lists the tokens of a sequence completes its expressions. -/
theorem DerivesAll.feedAll_complete
    {limit : Nat}
    {tokens : List Token}
    {items : List Datum} :
    DerivesAll tokens items →
      ∀ finished : List Datum,
        Datum.nestingIn items ≤ limit →
          Reader.feedAll limit ⟨finished, []⟩ tokens = .ok ⟨items.reverse ++ finished, []⟩
  | .nil, _, _ => rfl
  | @DerivesAll.cons first rest datum items head tail, finished, shallow => by
      obtain ⟨headShallow, tailShallow⟩ := Nat.max_le.mp shallow
      have headFed := head.feedAll ⟨finished, []⟩ headShallow
      have tailFed := feedAll_complete tail (datum :: finished) tailShallow
      rw [Reader.feedAll_append headFed, List.reverse_cons, List.append_assoc]
      exact tailFed

namespace Reader

section Stopping

variable {limit : Nat} {reader next : Reader} {token : Token} {tokens rest : List Token}

/-- A token completes at most one expression, and then leaves no list open. -/
theorem finished_of_feed
    (fed : reader.feed limit token = .ok next) :
    next.finished = reader.finished ∨
      ∃ datum, next = ⟨datum :: reader.finished, []⟩ := by
  have added (other : Reader) (datum : Datum) :
      (other.add datum).finished = other.finished ∨
        other.add datum = ⟨datum :: other.finished, []⟩ := by
    rcases other with ⟨finished, _ | ⟨items, outer⟩⟩
    · exact .inr rfl
    · exact .inl rfl
  rcases feed_cases fed with
    ⟨-, -, rfl⟩ | ⟨items, outer, -, -, rfl⟩ | ⟨text, datum, -, -, rfl⟩
  · exact .inl rfl
  · exact (added ⟨reader.finished, outer⟩ (.list items.reverse)).imp_right fun done => ⟨_, done⟩
  · exact (added reader datum).imp_right fun done => ⟨_, done⟩

theorem finished_eq_nil_of_feedAll
    (fed : reader.feedAll limit tokens = .ok next)
    (none : next.finished = []) :
    reader.finished = [] := by
  induction tokens generalizing reader with
  | nil =>
      cases fed
      exact none
  | cons token rest inductionHypothesis =>
      obtain ⟨middle, first, after⟩ := feedAll_cons_inv fed
      have middleNone := inductionHypothesis after
      rcases finished_of_feed first with same | ⟨datum, rfl⟩
      · rw [← same, middleNone]
      · cases middleNone

/-- Tokens that complete no expression are taken without a stop. -/
theorem untilFinished_append
    (fed : reader.feedAll limit tokens = .ok next)
    (none : next.finished = []) :
    reader.untilFinished limit (tokens ++ rest) = next.untilFinished limit rest := by
  induction tokens generalizing reader with
  | nil =>
      cases fed
      rfl
  | cons token others inductionHypothesis =>
      obtain ⟨middle, first, after⟩ := feedAll_cons_inv fed
      have middleNone := finished_eq_nil_of_feedAll after none
      rw [List.cons_append, untilFinished]
      simp only [first, middleNone]
      exact inductionHypothesis after

/-- How reading up to the first complete expression ends. -/
inductive Stop (limit : Nat) (reader : Reader) :
    List Token → Except Fault (Datum × List Token) → Prop where
  | ended
      {tokens : List Token}
      {last : Reader}
      (fed : reader.feedAll limit tokens = .ok last)
      (none : last.finished = []) :
      Stop limit reader tokens
        (.error (.parse (if last.opened.isEmpty then .unexpectedEnd else .missingClose)))
  | failed
      {front rest : List Token}
      {token : Token}
      {last : Reader}
      {fault : Fault}
      (fed : reader.feedAll limit front = .ok last)
      (none : last.finished = [])
      (fails : last.feed limit token = .error fault) :
      Stop limit reader (front ++ token :: rest) (.error fault)
  | completed
      {front rest : List Token}
      {token : Token}
      {last : Reader}
      {datum : Datum}
      (fed : reader.feedAll limit front = .ok last)
      (none : last.finished = [])
      (completes : last.feed limit token = .ok ⟨[datum], []⟩) :
      Stop limit reader (front ++ token :: rest) (.ok (datum, rest))

theorem Stop.cons
    {outcome : Except Fault (Datum × List Token)}
    (first : reader.feed limit token = .ok next)
    (stop : Stop limit next rest outcome) :
    Stop limit reader (token :: rest) outcome := by
  cases stop with
  | ended fed none =>
      exact .ended ((feedAll_cons first).trans fed) none
  | @failed front later failing last fault fed none fails =>
      rw [← List.cons_append]
      exact .failed ((feedAll_cons first).trans fed) none fails
  | @completed front later closing last datum fed none completes =>
      rw [← List.cons_append]
      exact .completed ((feedAll_cons first).trans fed) none completes

/-- Reading ends in one of these ways. -/
theorem stop_untilFinished
    (none : reader.finished = []) :
    Stop limit reader tokens (reader.untilFinished limit tokens) := by
  induction tokens generalizing reader with
  | nil =>
      have ended : Stop limit reader [] _ := .ended rfl none
      rw [untilFinished]
      split at ended
      · next closed =>
          rwa [if_pos closed]
      · next notClosed =>
          rwa [if_neg notClosed]
  | cons token others inductionHypothesis =>
      rw [untilFinished]
      cases first : reader.feed limit token with
      | error fault =>
          change Stop limit reader ([] ++ token :: others) _
          exact .failed rfl none first
      | ok middle =>
          rcases finished_of_feed first with same | ⟨datum, rfl⟩
          · rw [none] at same
            simp only [same]
            exact .cons first (inductionHypothesis same)
          · rw [none] at first ⊢
            change Stop limit reader ([] ++ token :: others) _
            exact .completed rfl none first

/-- Reading to the end takes all tokens and leaves no list open. -/
theorem feedAll_of_untilEnd
    {items : List Datum}
    (read : reader.untilEnd limit tokens = .ok items) :
    ∃ finished, reader.feedAll limit tokens = .ok ⟨finished, []⟩ ∧ items = finished.reverse := by
  induction tokens generalizing reader with
  | nil =>
      rcases reader with ⟨finished, _ | ⟨inner, outer⟩⟩
      · cases read
        exact ⟨finished, rfl, rfl⟩
      · cases read
  | cons token others inductionHypothesis =>
      rw [untilEnd] at read
      cases first : reader.feed limit token with
      | error fault =>
          simp only [first] at read
          cases read
      | ok middle =>
          simp only [first] at read
          obtain ⟨finished, fed, same⟩ := inductionHypothesis read
          exact ⟨finished, (feedAll_cons first).trans fed, same⟩

theorem untilEnd_append
    (fed : reader.feedAll limit tokens = .ok next) :
    reader.untilEnd limit (tokens ++ rest) = next.untilEnd limit rest := by
  induction tokens generalizing reader with
  | nil =>
      cases fed
      rfl
  | cons token others inductionHypothesis =>
      obtain ⟨middle, first, after⟩ := feedAll_cons_inv fed
      rw [List.cons_append, untilEnd, first]
      exact inductionHypothesis after

/-- Tokens that leave no list open are read to their end. -/
theorem untilEnd_of_feedAll
    {finished : List Datum}
    (fed : reader.feedAll limit tokens = .ok ⟨finished, []⟩) :
    reader.untilEnd limit tokens = .ok finished.reverse := by
  rw [← List.append_nil tokens, untilEnd_append fed]
  rfl

end Stopping

end Reader

/-- The first expression of a token sequence is one that its tokens derive. -/
theorem Derives.of_parseOne
    {limit : Nat}
    {tokens rest : List Token}
    {datum : Datum}
    (read : parseOne limit tokens = .ok (datum, rest)) :
    datum.nesting ≤ limit ∧ ∃ used, tokens = used ++ rest ∧ Derives used datum := by
  have stop : Reader.Stop limit .start tokens (parseOne limit tokens) :=
    Reader.stop_untilFinished rfl
  rw [read] at stop
  cases stop with
  | @completed front _ token last _ fed none completes =>
      have taken := ((Reader.Taken.start limit).feedAll fed).feed completes
      cases taken with
      | complete derived shallow =>
          refine ⟨?_, front ++ [token], by simp, derived.of_singleton⟩
          simpa [Datum.nestingIn] using shallow

/-- A source text consists of the expressions that its tokens derive, if none is nested too deep. -/
theorem parseMany_eq_ok_iff
    {limit : Nat}
    {source : String}
    {expressions : List Datum} :
    parseMany limit source = .ok expressions ↔
      Datum.nestingIn expressions ≤ limit ∧ DerivesAll (tokenize source) expressions := by
  constructor
  · intro read
    obtain ⟨finished, fed, rfl⟩ := Reader.feedAll_of_untilEnd read
    cases (Reader.Taken.start limit).feedAll fed with
    | complete derived shallow =>
        exact ⟨shallow, derived⟩
  · rintro ⟨shallow, derived⟩
    have read := Reader.untilEnd_of_feedAll (derived.feedAll_complete [] shallow)
    rwa [List.append_nil, List.reverse_reverse] at read

/-- The expressions of a source text are those that its tokens derive. -/
theorem DerivesAll.of_parseMany
    {limit : Nat}
    {source : String}
    {expressions : List Datum}
    (read : parseMany limit source = .ok expressions) :
    DerivesAll (tokenize source) expressions :=
  (parseMany_eq_ok_iff.mp read).2

/-- An expression that tokens derive is the first expression, whatever follows. -/
theorem Derives.parseOne
    {limit : Nat}
    {tokens : List Token}
    {datum : Datum}
    (derived : Derives tokens datum)
    (shallow : datum.nesting ≤ limit)
    (rest : List Token) :
    parseOne limit (tokens ++ rest) = .ok (datum, rest) := by
  cases derived with
  | atom denotes =>
      simp [MiniLisp.parseOne, Reader.untilFinished, Reader.feed, Reader.start, Reader.add, denotes]
  | @list inner items sequence =>
      simp only [Datum.nesting] at shallow
      have opening : Reader.start.feed limit .leftParen = .ok ⟨[], [[]]⟩ := by
        simp only [Reader.feed]
        exact if_pos (Nat.zero_lt_of_lt shallow)
      have inside := sequence.feedAll [] [] [] shallow
      rw [List.append_nil] at inside
      have upToClose := (Reader.feedAll_cons opening).trans inside
      have closing :
          Reader.feed limit ⟨[], [items.reverse]⟩ .rightParen = .ok ⟨[.list items], []⟩ := by
        simp only [Reader.feed, Reader.add, List.reverse_reverse]
      rw [MiniLisp.parseOne, List.append_assoc, Reader.untilFinished_append upToClose rfl,
        List.cons_append, Reader.untilFinished, closing]
      rfl

/-- No token sequence begins with two different expressions. -/
theorem Derives.unique
    {used other rest others : List Token}
    {datum second : Datum}
    (derived : Derives used datum)
    (otherDerived : Derives other second)
    (same : used ++ rest = other ++ others) :
    used = other ∧ datum = second := by
  have first := derived.parseOne (le_max_left datum.nesting second.nesting) rest
  have again := otherDerived.parseOne (le_max_right datum.nesting second.nesting) others
  rw [same, again] at first
  cases first
  exact ⟨List.append_cancel_right same, rfl⟩

/-- A source text is an expression if its tokens derive the expression and nothing follows. -/
theorem parse_eq_ok_iff
    {limit : Nat}
    {source : String}
    {datum : Datum} :
    parse limit source = .ok datum ↔
      datum.nesting ≤ limit ∧ Derives (tokenize source) datum := by
  constructor
  · intro parsed
    unfold parse at parsed
    split at parsed
    · cases parsed
    · next first read =>
        cases parsed
        obtain ⟨shallow, used, usedAll, derived⟩ := Derives.of_parseOne read
        rw [usedAll, List.append_nil]
        exact ⟨shallow, derived⟩
    · cases parsed
  · rintro ⟨shallow, derived⟩
    have read := derived.parseOne shallow []
    rw [List.append_nil] at read
    simp only [parse, read]

/-- A source text is one expression just if it consists of this expression. -/
theorem parse_eq_ok_iff_parseMany
    {limit : Nat}
    {source : String}
    {datum : Datum} :
    parse limit source = .ok datum ↔ parseMany limit source = .ok [datum] := by
  have alone : Datum.nestingIn [datum] = datum.nesting := Nat.max_zero _
  rw [parse_eq_ok_iff, parseMany_eq_ok_iff, alone]
  exact and_congr_right fun _ => ⟨.singleton, DerivesAll.of_singleton⟩

/--
The parser accepts exactly the grammar.  Within a limit, it gives an expression
with the rest of the tokens just if the tokens before the rest derive the
expression and the expression is nested no deeper than the limit; these tokens
and the expression are unique; and a source text is an expression just if its
tokens as a whole derive it.
-/
theorem parser_exact :
    (∀ (limit : Nat) (tokens rest : List Token) (datum : Datum),
      parseOne limit tokens = .ok (datum, rest) ↔
        datum.nesting ≤ limit ∧ ∃ used, tokens = used ++ rest ∧ Derives used datum) ∧
    (∀ tokens : List Token,
      Set.Subsingleton
        { parsed : List Token × Datum | parsed.1 <+: tokens ∧ Derives parsed.1 parsed.2 }) ∧
    (∀ (limit : Nat) (source : String) (datum : Datum),
      parse limit source = .ok datum ↔
        datum.nesting ≤ limit ∧ Derives (tokenize source) datum) := by
  refine ⟨?_, ?_, fun _ _ _ => parse_eq_ok_iff⟩
  · intro limit tokens rest datum
    constructor
    · exact Derives.of_parseOne
    · rintro ⟨shallow, used, rfl, derived⟩
      exact derived.parseOne shallow rest
  · rintro tokens ⟨used, datum⟩ ⟨⟨rest, whole⟩, derived⟩
      ⟨other, second⟩ ⟨⟨others, otherWhole⟩, otherDerived⟩
    obtain ⟨rfl, rfl⟩ := derived.unique otherDerived (whole.trans otherWhole.symm)
    rfl

end MiniLisp
