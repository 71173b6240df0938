import MiniLisp.Proofs.Tokenization

namespace MiniLisp

/-!
# Tokens in one pass

Tokens can be found without padding and splitting.  A scanner takes the characters
of a text one by one.  It keeps the atom to which the last characters belong, and
this atom is complete only when a blank or a parenthesis follows, or the text ends.

While a scanner takes characters, the tokens that it has emitted stay the first
tokens, whatever follows; so it ends with the tokens of the text.
-/

/-- A scanner in the middle of a text. -/
structure Scanner where
  /-- The tokens that are complete. -/
  emitted : List Token
  /-- The characters of an atom that may go on. -/
  pending : String

namespace Scanner

/-- A scanner that has seen nothing. -/
def start : Scanner :=
  ⟨[], ""⟩

/-- The tokens once the atom does not go on; without a character it is none. -/
def tokens (scanner : Scanner) : List Token :=
  if scanner.pending = "" then
    scanner.emitted
  else
    scanner.emitted ++ [.atom scanner.pending]

/--
Takes one character.  A parenthesis is a token of its own, a blank only ends an
atom, and any other character goes on with the atom.
-/
def step (scanner : Scanner) (c : Char) : Scanner :=
  if c = '(' then
    ⟨scanner.tokens ++ [.leftParen], ""⟩
  else if c = ')' then
    ⟨scanner.tokens ++ [.rightParen], ""⟩
  else if Text.isBlank c then
    ⟨scanner.tokens, ""⟩
  else
    ⟨scanner.emitted, scanner.pending ++ String.singleton c⟩

end Scanner

/-- The tokens of a text, found from left to right. -/
def scan (source : String) : List Token :=
  (source.toList.foldl Scanner.step .start).tokens

/-- The characters of tokens, one token after the other. -/
def spelling (tokens : List Token) : String :=
  String.join (tokens.map Token.text)

/-- A text without its blanks. -/
def withoutBlanks (text : String) : String :=
  String.ofList (text.toList.filter fun c => !Text.isBlank c)

/-- A text that separates tokens: blanks, and at least one of them. -/
structure IsGap (text : String) : Prop where
  nonempty : text ≠ ""
  blank : ∀ c ∈ text.toList, Text.isBlank c = true

theorem isGap_iff
    {text : String} :
    IsGap text ↔ text ≠ "" ∧ text.toList.all Text.isBlank = true := by
  rw [List.all_eq_true]
  exact ⟨fun isGap => ⟨isGap.nonempty, isGap.blank⟩, fun parts => ⟨parts.1, parts.2⟩⟩

instance (text : String) : Decidable (IsGap text) :=
  decidable_of_iff _ isGap_iff.symm

/-- Texts joined by gaps, which may all be different. -/
inductive Joined : List String → String → Prop where
  | nil : Joined [] ""
  | singleton (text : String) : Joined [text] text
  | cons
      {text next gap joined : String}
      {rest : List String}
      (isGap : IsGap gap)
      (later : Joined (next :: rest) joined) :
      Joined (text :: next :: rest) (text ++ gap ++ joined)

/-- Blanks in front of a text do not count. -/
theorem tokenize_blanks_append
    {blanks : List Char}
    (blank : ∀ c ∈ blanks, Text.isBlank c = true)
    (after : String) :
    tokenize (String.ofList blanks ++ after) = tokenize after := by
  induction blanks with
  | nil =>
      simp
  | cons c rest inductionHypothesis =>
      obtain ⟨firstBlank, restBlank⟩ := List.forall_mem_cons.mp blank
      have regrouped : String.ofList (c :: rest) ++ after =
          "" ++ String.singleton c ++ (String.ofList rest ++ after) := by
        apply String.toList_injective
        simp
      rw [regrouped, tokenize_append_blank firstBlank, inductionHypothesis restBlank]
      rfl

/-- A gap separates the tokens before it from the tokens after it. -/
theorem IsGap.tokenize_append
    {gap : String}
    (isGap : IsGap gap)
    (before after : String) :
    tokenize (before ++ gap ++ after) = tokenize before ++ tokenize after := by
  obtain ⟨c, rest, shape⟩ : ∃ c rest, gap.toList = c :: rest :=
    List.exists_cons_of_ne_nil (by simpa using isGap.nonempty)
  obtain ⟨firstBlank, restBlank⟩ := List.forall_mem_cons.mp (shape ▸ isGap.blank)
  have regrouped : before ++ gap ++ after =
      before ++ String.singleton c ++ (String.ofList rest ++ after) := by
    apply String.toList_injective
    simp [shape]
  rw [regrouped, tokenize_append_blank firstBlank, tokenize_blanks_append restBlank]

/-- The tokens of texts joined by gaps are the tokens of each in turn. -/
theorem Joined.tokenize_eq
    {texts : List String}
    {joined : String}
    (isJoined : Joined texts joined) :
    tokenize joined = texts.flatMap tokenize := by
  induction isJoined with
  | nil =>
      rfl
  | singleton text =>
      simp
  | cons isGap _ inductionHypothesis =>
      rw [isGap.tokenize_append, inductionHypothesis]
      exact List.flatMap_cons.symm

namespace Scanner

/--
What a scanner has taken: a text whose tokens it has emitted, whatever follows that
text, and then the characters of the pending atom.
-/
def Took (scanner : Scanner) (text : String) : Prop :=
  ∃ before,
    text = before ++ scanner.pending ∧
      (∀ c ∈ scanner.pending.toList, isAtomChar c = true) ∧
      ∀ after, tokenize (before ++ after) = scanner.emitted ++ tokenize after

section Taking

variable {scanner : Scanner} {text : String}

/-- The pending atom is one token at most. -/
theorem emitted_append_tokenize_pending
    (atomic : ∀ c ∈ scanner.pending.toList, isAtomChar c = true) :
    scanner.emitted ++ tokenize scanner.pending = scanner.tokens := by
  rw [tokens]
  split
  · next nothing =>
      rw [nothing]
      exact List.append_nil _
  · next something =>
      rw [tokenize_of_isAtomText ⟨by simpa using something, atomic⟩]

theorem Took.tokenize_eq
    (took : scanner.Took text) :
    tokenize text = scanner.tokens := by
  obtain ⟨before, rfl, atomic, separated⟩ := took
  rw [separated, emitted_append_tokenize_pending atomic]

/-- A character that ends the pending atom separates all that was taken from what follows. -/
theorem took_of_separator
    {c : Char}
    {emitted : List Token}
    (separates :
      ∀ after,
        tokenize (text ++ String.singleton c ++ after) = emitted ++ tokenize after) :
    Took ⟨emitted, ""⟩ (text ++ String.singleton c) :=
  ⟨text ++ String.singleton c, by simp, by simp, separates⟩

theorem Took.paren
    (took : scanner.Took text)
    {c : Char}
    (paren : c = '(' ∨ c = ')') :
    Took ⟨scanner.tokens ++ [Token.ofText (String.singleton c)], ""⟩
      (text ++ String.singleton c) := by
  apply took_of_separator
  intro after
  rw [tokenize_append_paren paren, took.tokenize_eq, List.append_assoc, List.singleton_append]

/-- One more character keeps the account of what was taken. -/
theorem Took.step
    (took : scanner.Took text)
    (c : Char) :
    (scanner.step c).Took (text ++ String.singleton c) := by
  rw [Scanner.step]
  split
  · next isLeft =>
      subst isLeft
      exact took.paren (.inl rfl)
  · split
    · next isRight =>
        subst isRight
        exact took.paren (.inr rfl)
    · split
      · next blank =>
          apply took_of_separator
          intro after
          rw [tokenize_append_blank blank, took.tokenize_eq]
      · next notLeft notRight notBlank =>
          obtain ⟨before, rfl, atomic, separated⟩ := took
          refine ⟨before, String.append_assoc .., ?_, separated⟩
          intro other member
          rw [String.toList_append, String.toList_singleton] at member
          rcases List.mem_append.mp member with earlier | last
          · exact atomic other earlier
          · rw [List.mem_singleton.mp last]
            exact isAtomChar_of_not notBlank (not_or.mpr ⟨notLeft, notRight⟩)

/-- Characters one after the other keep the account of what was taken. -/
theorem Took.foldl_step
    (took : scanner.Took text)
    (chars : List Char) :
    (chars.foldl Scanner.step scanner).Took (text ++ String.ofList chars) := by
  induction chars generalizing scanner text with
  | nil =>
      simpa using took
  | cons c rest inductionHypothesis =>
      have regrouped :
          text ++ String.ofList (c :: rest) = text ++ String.singleton c ++ String.ofList rest := by
        apply String.toList_injective
        simp
      rw [regrouped]
      exact inductionHypothesis (took.step c)

theorem took_start : start.Took "" :=
  ⟨"", rfl, by simp [start], fun _ => rfl⟩

end Taking

theorem spelling_append
    (tokens others : List Token) :
    spelling (tokens ++ others) = spelling tokens ++ spelling others := by
  apply String.toList_injective
  simp [spelling]

theorem withoutBlanks_append
    (text other : String) :
    withoutBlanks (text ++ other) = withoutBlanks text ++ withoutBlanks other := by
  simp [withoutBlanks]

theorem spelling_tokens
    (scanner : Scanner) :
    spelling scanner.tokens = spelling scanner.emitted ++ scanner.pending := by
  rw [tokens]
  split
  · next nothing =>
      rw [nothing, String.append_empty]
  · rw [spelling_append]
    simp [spelling, Token.text]

theorem withoutBlanks_singleton
    (c : Char) :
    withoutBlanks (String.singleton c) =
      if Text.isBlank c then "" else String.singleton c := by
  by_cases blank : Text.isBlank c = true
  · simp [withoutBlanks, blank]
  · apply String.toList_injective
    simp [withoutBlanks, blank]

/-- A character is kept in the spelling unless it is blank. -/
theorem spelling_tokens_step
    (scanner : Scanner)
    (c : Char) :
    spelling (scanner.step c).tokens =
      spelling scanner.tokens ++ withoutBlanks (String.singleton c) := by
  rw [spelling_tokens (scanner.step c), withoutBlanks_singleton, Scanner.step]
  split
  · next isLeft =>
      rw [isLeft, spelling_append, String.append_empty, if_neg (by decide)]
      rfl
  · split
    · next isRight =>
        rw [isRight, spelling_append, String.append_empty, if_neg (by decide)]
        rfl
    · split
      · rfl
      · rw [spelling_tokens, String.append_assoc]

/-- Characters one after the other are kept in the spelling, but for the blanks. -/
theorem spelling_tokens_foldl_step
    (scanner : Scanner)
    (chars : List Char) :
    spelling (chars.foldl Scanner.step scanner).tokens =
      spelling scanner.tokens ++ withoutBlanks (String.ofList chars) := by
  induction chars generalizing scanner with
  | nil =>
      simp [withoutBlanks]
  | cons c rest inductionHypothesis =>
      rw [List.foldl_cons, inductionHypothesis, spelling_tokens_step, String.append_assoc,
        ← withoutBlanks_append]
      congr 2
      apply String.toList_injective
      simp

end Scanner

/-- Padding and splitting find the tokens that a scanner finds in one pass. -/
theorem tokenize_eq_scan
    (source : String) :
    tokenize source = scan source := by
  have took := Scanner.took_start.foldl_step source.toList
  rw [String.empty_append, String.ofList_toList] at took
  exact took.tokenize_eq

theorem spelling_scan
    (source : String) :
    spelling (scan source) = withoutBlanks source := by
  have spelled := Scanner.start.spelling_tokens_foldl_step source.toList
  rw [String.ofList_toList] at spelled
  exact spelled.trans String.empty_append

/--
The tokens of a text are those that one pass over its characters emits: each
parenthesis by itself, and each run of other characters up to a blank, a parenthesis
or the end of the text.  Hence they spell the text without its blanks, and joined by
any gaps they are found again.
-/
theorem tokenize_is_one_pass
    (source : String) :
    tokenize source = scan source ∧
      spelling (tokenize source) = withoutBlanks source ∧
      ∀ joined,
        Joined ((tokenize source).map Token.text) joined →
          tokenize joined = tokenize source := by
  refine ⟨tokenize_eq_scan source, ?_, ?_⟩
  · rw [tokenize_eq_scan, spelling_scan]
  · intro joined isJoined
    rw [isJoined.tokenize_eq, (properTokens_tokenize source).flatMap_tokenize_text]

/-- Gaps of one blank and of two, with a line feed and a line separator among them. -/
theorem tokenize_is_one_pass_gaps :
    tokenize "(a b)" = [.leftParen, .atom "a", .atom "b", .rightParen] ∧
      Joined ((tokenize "(a b)").map Token.text) "(\n a\u2028b\t)" ∧
      tokenize "(\n a\u2028b\t)" = tokenize "(a b)" := by
  have first : IsGap "\n " := by decide
  have second : IsGap "\u2028" := by decide
  have third : IsGap "\t" := by decide
  have isJoined : Joined ["(", "a", "b", ")"] "(\n a\u2028b\t)" :=
    .cons first (.cons second (.cons third (.singleton ")")))
  exact ⟨rfl, isJoined, (tokenize_is_one_pass "(a b)").2.2 _ isJoined⟩

end MiniLisp
