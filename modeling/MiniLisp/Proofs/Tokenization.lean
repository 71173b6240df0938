import Mathlib.Data.List.Basic
import MiniLisp.Text.Cut
import MiniLisp.Token

namespace MiniLisp

/-!
# Tokens of composed texts

A blank and a parenthesis separate what stands before from what stands after,
so the tokens of a composed text are those of its parts.  An atom has neither
blanks nor parentheses in it, and such a text is a single token.
-/

/-- Whether a character can stand in an atom. -/
def isAtomChar (c : Char) : Bool :=
  !Text.isBlank c && c != '(' && c != ')'

/-- A text that can be an atom: characters that can stand in one, and at least one of them. -/
structure IsAtomText (text : String) : Prop where
  nonempty : text.toList ≠ []
  chars : ∀ c ∈ text.toList, isAtomChar c = true

/-- A line feed cannot stand in an atom, so none stands at its end. -/
theorem dropFinalLineFeed_of_isAtomChar
    {text : List Char}
    (chars : ∀ c ∈ text, isAtomChar c = true) :
    Text.dropFinalLineFeed text = text := by
  rw [Text.dropFinalLineFeed, if_neg]
  intro last
  have member := chars '\n' (List.mem_of_getLast? last)
  exact absurd member (by decide)

theorem IsAtomText.dropFinalLineFeed
    {text : String}
    (atomic : IsAtomText text) :
    Text.dropFinalLineFeed text.toList = text.toList :=
  dropFinalLineFeed_of_isAtomChar atomic.chars

section Chars

variable {c : Char}

theorem isBlank_of_isAtomChar
    (atomic : isAtomChar c = true) :
    Text.isBlank c = false := by
  simp only [isAtomChar, Bool.and_eq_true] at atomic
  simpa using atomic.1.1

theorem ne_paren_of_isAtomChar
    (atomic : isAtomChar c = true) :
    ¬(c = '(' ∨ c = ')') := by
  simp only [isAtomChar, Bool.and_eq_true] at atomic
  rintro (rfl | rfl)
  · exact absurd atomic.1.2 (by decide)
  · exact absurd atomic.2 (by decide)

theorem isAtomChar_of_not
    (notBlank : ¬Text.isBlank c = true)
    (notParen : ¬(c = '(' ∨ c = ')')) :
    isAtomChar c = true := by
  simp only [not_or] at notParen
  simp [isAtomChar, notBlank, notParen]

theorem isBlank_space : Text.isBlank ' ' = true := by
  decide

theorem isBlank_of_paren
    (paren : c = '(' ∨ c = ')') :
    Text.isBlank c = false := by
  rcases paren with rfl | rfl
  · decide
  · decide

end Chars

namespace Text

/-- A blank separates the words before it from the words after it. -/
theorem words_append_blank
    {c : Char}
    (blank : isBlank c = true)
    (before after : List Char) :
    words (before ++ c :: after) = words before ++ words after := by
  rw [words, List.splitOnP_append_cons before after blank, List.filter_append]
  rfl

theorem words_of_not_blank
    {text : List Char}
    (nonempty : text ≠ [])
    (noBlank : ∀ c ∈ text, isBlank c = false) :
    words text = [text] := by
  rw [words, List.splitOnP_eq_singleton noBlank]
  simp [nonempty]

theorem words_of_blank
    {text : List Char}
    (blank : ∀ c ∈ text, isBlank c = true) :
    words text = [] := by
  induction text with
  | nil =>
      rfl
  | cons c rest inductionHypothesis =>
      have separated : words (c :: rest) = words [] ++ words rest :=
        words_append_blank (blank c (by simp)) [] rest
      rw [separated, inductionHypothesis fun other member => blank other (by simp [member])]
      rfl

end Text

theorem padParens_append
    (before after : List Char) :
    padParens (before ++ after) = padParens before ++ padParens after := by
  simp [padParens]

theorem padParens_cons
    (c : Char)
    (rest : List Char) :
    padParens (c :: rest) =
      (if c = '(' ∨ c = ')' then [' ', c, ' '] else [c]) ++ padParens rest :=
  rfl

theorem padParens_of_not_paren
    {text : List Char}
    (noParen : ∀ c ∈ text, ¬(c = '(' ∨ c = ')')) :
    padParens text = text := by
  induction text with
  | nil =>
      rfl
  | cons c rest inductionHypothesis =>
      have restSame := inductionHypothesis fun other member => noParen other (by simp [member])
      rw [padParens_cons, if_neg (noParen c (by simp)), restSame, List.singleton_append]

/-- A blank separates the tokens before it from the tokens after it. -/
theorem tokenize_append_blank
    {c : Char}
    (blank : Text.isBlank c = true)
    (before after : String) :
    tokenize (before ++ String.singleton c ++ after) = tokenize before ++ tokenize after := by
  have notParen : ¬(c = '(' ∨ c = ')') := by
    intro paren
    rw [isBlank_of_paren paren] at blank
    contradiction
  have padded : padParens [c] = [c] := padParens_of_not_paren (by simpa using notParen)
  unfold tokenize
  rw [String.toList_append, String.toList_append, padParens_append, padParens_append,
    String.toList_singleton, padded, List.append_assoc, List.singleton_append,
    Text.words_append_blank blank, List.map_append]

/-- A blank text has no tokens. -/
theorem tokenize_of_blank
    {text : String}
    (blank : ∀ c ∈ text.toList, Text.isBlank c = true) :
    tokenize text = [] := by
  have noParen (c : Char) (member : c ∈ text.toList) : ¬(c = '(' ∨ c = ')') := by
    intro paren
    have notBlank := isBlank_of_paren paren
    rw [blank c member] at notBlank
    contradiction
  rw [tokenize, padParens_of_not_paren noParen, Text.words_of_blank blank]
  rfl

/-- A parenthesis is a token, whatever stands before and after it. -/
theorem tokenize_append_paren
    {c : Char}
    (paren : c = '(' ∨ c = ')')
    (before after : String) :
    tokenize (before ++ String.singleton c ++ after) =
      tokenize before ++ Token.ofText (String.singleton c) :: tokenize after := by
  have padded : padParens [c] = [' ', c, ' '] := by
    simp [padParens, paren]
  have alone : Text.words [c] = [[c]] :=
    Text.words_of_not_blank (by simp) (by simpa using isBlank_of_paren paren)
  have separated (first second : List Char) :
      Text.words (first ++ [' ', c, ' '] ++ second) =
        Text.words first ++ [c] :: Text.words second := by
    have regrouped : first ++ [' ', c, ' '] ++ second = first ++ ' ' :: ([c] ++ ' ' :: second) := by
      simp
    rw [regrouped, Text.words_append_blank isBlank_space,
      Text.words_append_blank isBlank_space, alone]
    rfl
  unfold tokenize
  rw [String.toList_append, String.toList_append, padParens_append, padParens_append,
    String.toList_singleton, padded, separated, List.map_append]
  rfl

theorem tokenize_parenthesized
    (body : String) :
    tokenize ("(" ++ body ++ ")") = .leftParen :: tokenize body ++ [.rightParen] := by
  have opening := tokenize_append_paren (.inl rfl) "" body
  have closing := tokenize_append_paren (.inr rfl) ("" ++ String.singleton '(' ++ body) ""
  have nothing : tokenize "" = [] := rfl
  rw [opening] at closing
  simpa [nothing, Token.ofText] using closing

/-- The tokens of texts joined by a blank are the tokens of each in turn. -/
theorem tokenize_intercalate_blank
    {c : Char}
    (blank : Text.isBlank c = true)
    (texts : List String) :
    tokenize ((String.singleton c).intercalate texts) = texts.flatMap tokenize := by
  induction texts with
  | nil =>
      rw [String.intercalate_nil]
      rfl
  | cons text rest inductionHypothesis =>
      cases rest with
      | nil =>
          simp
      | cons next later =>
          rw [String.intercalate_cons_cons, List.flatMap_cons, ← inductionHypothesis]
          exact tokenize_append_blank blank text _

/-- The tokens of texts joined by spaces are the tokens of each in turn. -/
theorem tokenize_intercalate
    (texts : List String) :
    tokenize (" ".intercalate texts) = texts.flatMap tokenize :=
  tokenize_intercalate_blank isBlank_space texts

/-- A text that can be an atom is a single token. -/
theorem tokenize_of_isAtomText
    {text : String}
    (atomic : IsAtomText text) :
    tokenize text = [.atom text] := by
  have padded : padParens text.toList = text.toList :=
    padParens_of_not_paren fun c member => ne_paren_of_isAtomChar (atomic.chars c member)
  have single : Text.words text.toList = [text.toList] :=
    Text.words_of_not_blank atomic.nonempty
      fun c member => isBlank_of_isAtomChar (atomic.chars c member)
  have notLeft : Token.atom text ≠ .atom "(" := by
    rintro ⟨⟩
    exact absurd (atomic.chars '(' (by decide)) (by decide)
  have notRight : Token.atom text ≠ .atom ")" := by
    rintro ⟨⟩
    exact absurd (atomic.chars ')' (by decide)) (by decide)
  have spelling : Token.ofText text = .atom text :=
    Token.ofText_text (.atom text) ⟨notLeft, notRight⟩
  rw [tokenize, padded, single, List.map_singleton, String.ofList_toList, spelling]

/-- What can stand between two blanks of a padded text: characters of an atom, or a parenthesis. -/
def IsRun (run : List Char) : Prop :=
  (∀ c ∈ run, isAtomChar c = true) ∨ run = ['('] ∨ run = [')']

/--
A padded text splits into runs.  No parenthesis is the first run, so that a
character in front of the text can join it.
-/
theorem splitOnP_padParens
    (source : List Char) :
    ∃ first rest,
      (padParens source).splitOnP Text.isBlank = first :: rest ∧
        (∀ c ∈ first, isAtomChar c = true) ∧
        ∀ run ∈ rest, IsRun run := by
  induction source with
  | nil =>
      exact ⟨[], [], rfl, by simp, by simp⟩
  | cons c source inductionHypothesis =>
      obtain ⟨first, rest, split, firstAtomic, restAtomic⟩ := inductionHypothesis
      have laterRuns : ∀ run ∈ first :: rest, IsRun run := by
        intro run member
        rcases List.mem_cons.mp member with rfl | inRest
        · exact .inl firstAtomic
        · exact restAtomic run inRest
      by_cases paren : c = '(' ∨ c = ')'
      · -- The padding puts a blank before and after the parenthesis.
        have notBlank : ∀ other ∈ [c], Text.isBlank other = false := by
          intro other member
          rw [List.mem_singleton.mp member]
          exact isBlank_of_paren paren
        refine ⟨[], [c] :: first :: rest, ?_, by simp, ?_⟩
        · rw [padParens_cons, if_pos paren]
          change (' ' :: ([c] ++ ' ' :: padParens source)).splitOnP Text.isBlank = _
          rw [List.splitOnP_cons_eq_if_modifyHead, if_pos isBlank_space,
            List.splitOnP_append_cons_of_forall_mem notBlank ' ' isBlank_space, split]
        · intro run member
          rcases List.mem_cons.mp member with rfl | later
          · rcases paren with rfl | rfl
            · exact .inr (.inl rfl)
            · exact .inr (.inr rfl)
          · exact laterRuns run later
      · rw [padParens_cons, if_neg paren, List.singleton_append,
          List.splitOnP_cons_eq_if_modifyHead, split]
        by_cases blank : Text.isBlank c = true
        · rw [if_pos blank]
          exact ⟨[], first :: rest, rfl, by simp, laterRuns⟩
        · rw [if_neg blank]
          refine ⟨c :: first, rest, rfl, ?_, restAtomic⟩
          intro other member
          rcases List.mem_cons.mp member with rfl | inFirst
          · exact isAtomChar_of_not blank paren
          · exact firstAtomic other inFirst

/-- The atoms among the tokens of a text are texts that can be atoms. -/
theorem isAtomText_of_mem_tokenize
    {source text : String}
    (member : .atom text ∈ tokenize source) :
    IsAtomText text := by
  obtain ⟨run, inWords, spelling⟩ := List.mem_map.mp member
  have nonempty := Text.ne_nil_of_mem_words inWords
  obtain ⟨first, rest, split, firstAtomic, restAtomic⟩ := splitOnP_padParens source.toList
  have inSplit : run ∈ first :: rest := by
    rw [← split]
    exact List.mem_of_mem_filter inWords
  have isRun : IsRun run := by
    rcases List.mem_cons.mp inSplit with rfl | inRest
    · exact .inl firstAtomic
    · exact restAtomic run inRest
  rcases isRun with atomic | rfl | rfl
  · have sameText : String.ofList run = text := by
      unfold Token.ofText at spelling
      split at spelling
      · cases spelling
      · split at spelling
        · cases spelling
        · exact Token.atom.inj spelling
    subst sameText
    exact ⟨by simpa using nonempty, by simpa using atomic⟩
  · cases spelling
  · cases spelling

/-- Tokens that stand in some source text. -/
def ProperTokens (tokens : List Token) : Prop :=
  ∀ text, .atom text ∈ tokens → IsAtomText text

theorem properTokens_tokenize (source : String) : ProperTokens (tokenize source) :=
  fun _ member => isAtomText_of_mem_tokenize member

namespace ProperTokens

variable {tokens : List Token}

/-- The spelling of each proper token is read as this token. -/
theorem flatMap_tokenize_text
    (proper : ProperTokens tokens) :
    (tokens.map Token.text).flatMap tokenize = tokens := by
  have single (token : Token) (member : token ∈ tokens) : tokenize token.text = [token] := by
    cases token with
    | leftParen =>
        rfl
    | rightParen =>
        rfl
    | atom text =>
        exact tokenize_of_isAtomText (proper text member)
  rw [List.flatMap_map, List.flatMap_congr single]
  simp

/-- Proper tokens joined by spaces are read as these tokens. -/
theorem tokenize_intercalate
    (proper : ProperTokens tokens) :
    tokenize (" ".intercalate (tokens.map Token.text)) = tokens := by
  rw [MiniLisp.tokenize_intercalate, proper.flatMap_tokenize_text]

end ProperTokens

end MiniLisp
