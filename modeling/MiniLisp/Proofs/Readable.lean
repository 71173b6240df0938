import MiniLisp.Proofs.Outcome
import MiniLisp.Proofs.RoundTrip

namespace MiniLisp

/-!
# Expressions that can be read

An expression is readable if some source text reads as it.  What is read is made
of readable parts, its names are identifiers, and its integers have few enough
digits to be printed.  Evaluation takes expressions apart and never makes new
ones, so these facts hold of every expression that a program gets to see.
-/

/--
A text that can name a variable: it can be an atom, and it is neither a numeral
nor a truth value nor a reserved word.
-/
structure IsIdentifier (text : String) : Prop where
  atomic : IsAtomText text
  notInteger : integerNumeral? text.toList = none
  notFloat : pointNumeral? text.toList = none
  notTrue : text ≠ "true"
  notFalse : text ≠ "false"
  notReserved (word : Word) : word.text ≠ text

/-- An expression that some source text reads as. -/
def Datum.Readable (expression : Datum) : Prop :=
  ∃ limit source, parse limit source = .ok expression

namespace Datum

/-- What can be read is what proper tokens derive. -/
theorem readable_iff
    {expression : Datum} :
    expression.Readable ↔ ∃ tokens, ProperTokens tokens ∧ Derives tokens expression := by
  constructor
  · rintro ⟨limit, source, parsed⟩
    exact ⟨tokenize source, properTokens_tokenize source, (parse_eq_ok_iff.mp parsed).2⟩
  · rintro ⟨tokens, proper, derived⟩
    refine ⟨expression.nesting, " ".intercalate (tokens.map Token.text), ?_⟩
    rw [parse_eq_ok_iff, proper.tokenize_intercalate]
    exact ⟨le_refl _, derived⟩

end Datum

theorem DerivesAll.exists_of_mem
    {tokens : List Token}
    {items : List Datum}
    {item : Datum} :
    DerivesAll tokens items → item ∈ items → ∃ part, part ⊆ tokens ∧ Derives part item
  | .nil, member => by
      cases member
  | .cons head tail, member => by
      rcases List.mem_cons.mp member with rfl | inRest
      · exact ⟨_, List.subset_append_left _ _, head⟩
      · obtain ⟨part, included, derived⟩ := exists_of_mem tail inRest
        exact ⟨part, List.subset_append_of_subset_right _ included, derived⟩

namespace Datum

/-- Of a sequence of expressions in proper tokens, each is readable. -/
theorem Readable.of_derivesAll
    {tokens : List Token}
    {items : List Datum}
    (proper : ProperTokens tokens)
    (derived : DerivesAll tokens items)
    {item : Datum}
    (member : item ∈ items) :
    item.Readable := by
  obtain ⟨part, included, partDerived⟩ := derived.exists_of_mem member
  exact readable_iff.mpr ⟨part, fun text inPart => proper text (included inPart), partDerived⟩

theorem Readable.member
    {items : List Datum}
    (readable : (Datum.list items).Readable)
    {item : Datum}
    (member : item ∈ items) :
    item.Readable := by
  obtain ⟨tokens, proper, derived⟩ := readable_iff.mp readable
  cases derived with
  | atom denotes =>
      have nested := nesting_ofAtom denotes
      cases nested
  | @list inside _ sequence =>
      have insideProper : ProperTokens inside :=
        fun text inInside => proper text (by simp [inInside])
      exact .of_derivesAll insideProper sequence member

/-- What is readable and no list is denoted by an atom. -/
theorem Readable.exists_ofAtom
    {expression : Datum}
    (readable : expression.Readable)
    (notList : ∀ items, expression ≠ .list items) :
    ∃ text, IsAtomText text ∧ ofAtom text = .ok expression := by
  obtain ⟨tokens, proper, derived⟩ := readable_iff.mp readable
  cases derived with
  | @atom text _ denotes =>
      exact ⟨text, proper text (by simp), denotes⟩
  | list sequence =>
      exact absurd rfl (notList _)

theorem ofWord_eq_name
    {token text : String}
    (named : ofWord token = .name text) :
    token = text ∧ text ≠ "true" ∧ text ≠ "false" ∧ ∀ word : Word, word.text ≠ text := by
  unfold ofWord at named
  split at named
  · cases named
  · next notTrue =>
      split at named
      · cases named
      · next notFalse =>
          split at named
          · cases named
          · next notReserved =>
              cases named
              refine ⟨rfl, notTrue, notFalse, ?_⟩
              rintro word rfl
              rw [Word.ofText?_text] at notReserved
              cases notReserved

theorem isIdentifier_of_ofAtom
    {token text : String}
    (atomic : IsAtomText token)
    (denotes : ofAtom token = .ok (.name text)) :
    token = text ∧ IsIdentifier text := by
  have account := denotes_of_ofAtom denotes
  generalize same : Datum.name text = datum at account
  cases account with
  | integer numeral few =>
      cases same
  | float notInteger numeral =>
      cases same
  | word notInteger notFloat =>
      obtain ⟨rfl, notTrue, notFalse, notReserved⟩ := ofWord_eq_name same.symm
      rw [atomic.dropFinalLineFeed] at notInteger notFloat
      exact ⟨rfl, atomic, notInteger, notFloat, notTrue, notFalse, notReserved⟩

/-- The names in what was read are identifiers. -/
theorem Readable.isIdentifier
    {text : String}
    (readable : (Datum.name text).Readable) :
    IsIdentifier text := by
  obtain ⟨token, atomic, denotes⟩ := readable.exists_ofAtom nofun
  exact (isIdentifier_of_ofAtom atomic denotes).2

/-- What an atom denotes can be printed: an integer of too many digits is refused on reading. -/
theorem exists_render_of_ofAtom
    {token : String}
    {datum : Datum}
    (denotes : ofAtom token = .ok datum)
    (limit : Nat) :
    ∃ text, datum.render (limit + 1) = .ok text := by
  cases denotes_of_ofAtom denotes with
  | integer numeral few =>
      have printable := hasFewDigits_ofDigits (decimal_of_integerNumeral? numeral).2 few
      rw [render, Number.text, natAbs_signedInt, if_pos printable]
      exact ⟨_, rfl⟩
  | float notInteger numeral =>
      exact ⟨_, rfl⟩
  | word notInteger notFloat =>
      exact ⟨token, render_ofWord token limit⟩

/-- What was read can be printed, unless it is nested too deep. -/
theorem Readable.render_ends
    {expression : Datum}
    (readable : expression.Readable)
    (limit : Nat) :
    Ends (· = .tooDeep) (fun _ => True) (expression.render limit) := by
  induction limit generalizing expression with
  | zero =>
      exact .error rfl
  | succ limit inductionHypothesis =>
      by_cases shape : ∃ items, expression = .list items
      · obtain ⟨items, rfl⟩ := shape
        have texts : Ends (· = .tooDeep) _ (items.mapM (render limit)) :=
          .mapM fun item member => inductionHypothesis (readable.member member)
        exact texts.bind fun _ _ => .ok trivial
      · obtain ⟨token, _, denotes⟩ :=
          readable.exists_ofAtom fun items same => shape ⟨items, same⟩
        obtain ⟨text, rendered⟩ := exists_render_of_ofAtom denotes limit
        rw [rendered]
        exact .ok trivial

end Datum

/-- Identifiers are the atoms of source texts that denote themselves as names. -/
theorem isIdentifier_iff
    {text : String} :
    IsIdentifier text ↔
      (∃ source, .atom text ∈ tokenize source) ∧ Datum.ofAtom text = .ok (.name text) := by
  constructor
  · intro identifier
    have spelled := tokenize_of_isAtomText identifier.atomic
    refine ⟨⟨text, by rw [spelled]; exact List.mem_singleton_self _⟩, ?_⟩
    have notReserved : Word.ofText? text = none := by
      refine List.find?_eq_none.mpr fun word _ => ?_
      simpa using identifier.notReserved word
    rw [Datum.ofAtom, identifier.atomic.dropFinalLineFeed]
    simp only [identifier.notInteger, identifier.notFloat, Datum.ofWord, notReserved,
      if_neg identifier.notTrue, if_neg identifier.notFalse]
  · rintro ⟨⟨source, member⟩, denotes⟩
    exact (Datum.isIdentifier_of_ofAtom (isAtomText_of_mem_tokenize member) denotes).2

end MiniLisp
