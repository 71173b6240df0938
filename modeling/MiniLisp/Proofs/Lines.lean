import Mathlib.Data.List.DropRight
import MiniLisp.History

namespace MiniLisp

/-!
# Lines of a history

Lines are trimmed by all blanks of Unicode, but are ended by line feeds and carriage
returns only.  A text that ends with a line end can be continued: the lines of the
whole are those of the text and then those of the continuation, unless a carriage
return meets a line feed where they join.

So lines that are trimmed, not empty and not broken are read back as they are from
behind any such text.
-/

namespace Text

/-- A text whose last line is ended, if it has any lines. -/
def IsTerminated (text : List Char) : Prop :=
  text = [] ∨ text.getLast? = some '\n' ∨ text.getLast? = some '\r'

/-- A text without an end of a line in it. -/
def IsUnbroken (text : List Char) : Prop :=
  '\n' ∉ text ∧ '\r' ∉ text

/-- Texts that join without a carriage return in front of a line feed between them. -/
def JoinsApart (front rest : List Char) : Prop :=
  front.getLast? = some '\r' → rest.head? ≠ some '\n'

section LineEnds

variable {c : Char} {text front rest : List Char}

theorem JoinsApart.tail
    (apart : JoinsApart (c :: front) rest) :
    JoinsApart front rest := by
  intro last
  apply apart
  rw [List.getLast?_cons, last]
  rfl

theorem unifyLineEnds_return
    (notFeed : rest.head? ≠ some '\n') :
    unifyLineEnds ('\r' :: rest) = '\n' :: unifyLineEnds rest := by
  apply unifyLineEnds.eq_3
  rintro later rfl
  exact notFeed rfl

theorem unifyLineEnds_cons
    (notReturn : c ≠ '\r') :
    unifyLineEnds (c :: rest) = c :: unifyLineEnds rest := by
  apply unifyLineEnds.eq_4
  · intro later isReturn
    exact absurd isReturn notReturn
  · exact notReturn

/-- Line ends are made uniform in each text, where none goes over from one to the other. -/
theorem unifyLineEnds_append
    (apart : JoinsApart front rest) :
    unifyLineEnds (front ++ rest) = unifyLineEnds front ++ unifyLineEnds rest := by
  fun_induction unifyLineEnds front with
  | case1 =>
      rfl
  | case2 later inductionHypothesis =>
      exact congrArg (List.cons '\n') (inductionHypothesis apart.tail.tail)
  | case3 later notFeed inductionHypothesis =>
      have alone : (later ++ rest).head? ≠ some '\n' := by
        cases later with
        | nil =>
            exact apart rfl
        | cons first others =>
            rintro ⟨⟩
            exact notFeed others rfl
      rw [List.cons_append, unifyLineEnds_return alone, inductionHypothesis apart.tail]
      rfl
  | case4 c later _ notReturn inductionHypothesis =>
      rw [List.cons_append, unifyLineEnds_cons notReturn, inductionHypothesis apart.tail]
      rfl

theorem unifyLineEnds_of_no_return
    (noReturn : '\r' ∉ text) :
    unifyLineEnds text = text := by
  induction text with
  | nil =>
      rfl
  | cons c rest inductionHypothesis =>
      rw [List.mem_cons, not_or] at noReturn
      rw [unifyLineEnds_cons (Ne.symm noReturn.1), inductionHypothesis noReturn.2]

theorem IsTerminated.tail
    (terminated : IsTerminated (c :: text)) :
    IsTerminated text := by
  cases text with
  | nil =>
      exact .inl rfl
  | cons next later =>
      rcases terminated with empty | ended
      · cases empty
      · rw [List.getLast?_cons_cons] at ended
        exact .inr ended

/-- The last line of a text with lines is ended by a line feed, once line ends are uniform. -/
theorem IsTerminated.exists_unifyLineEnds
    (terminated : IsTerminated text)
    (nonempty : text ≠ []) :
    ∃ front, unifyLineEnds text = front ++ ['\n'] := by
  -- A line end makes a line feed, and any other character has something after it.
  have behind {later : List Char}
      (inductionHypothesis : IsTerminated later → later ≠ [] →
        ∃ front, unifyLineEnds later = front ++ ['\n'])
      (laterTerminated : IsTerminated later) :
      ∃ front, '\n' :: unifyLineEnds later = front ++ ['\n'] := by
    by_cases last : later = []
    · exact ⟨[], by rw [last]; rfl⟩
    · obtain ⟨front, ended⟩ := inductionHypothesis laterTerminated last
      exact ⟨'\n' :: front, congrArg (List.cons '\n') ended⟩
  fun_induction unifyLineEnds text with
  | case1 =>
      exact absurd rfl nonempty
  | case2 later inductionHypothesis =>
      exact behind inductionHypothesis terminated.tail.tail
  | case3 later _ inductionHypothesis =>
      exact behind inductionHypothesis terminated.tail
  | case4 c later _ notReturn inductionHypothesis =>
      by_cases last : later = []
      · subst last
        rcases terminated with empty | isFeed | isReturn
        · cases empty
        · cases isFeed
          exact ⟨[], rfl⟩
        · cases isReturn
          exact absurd rfl notReturn
      · obtain ⟨front, ended⟩ := inductionHypothesis terminated.tail last
        exact ⟨c :: front, congrArg (List.cons c) ended⟩

/-- Behind a terminated text the lines of another text follow. -/
theorem lines_append
    (terminated : IsTerminated front)
    (apart : JoinsApart front rest) :
    lines (front ++ rest) = lines front ++ lines rest := by
  by_cases empty : front = []
  · subst empty
    rfl
  · obtain ⟨before, ended⟩ := terminated.exists_unifyLineEnds empty
    have pieces (after : List Char) :
        (before ++ '\n' :: after).splitOnP (· == '\n') =
          before.splitOnP (· == '\n') ++ after.splitOnP (· == '\n') :=
      List.splitOnP_append_cons before after rfl
    have someLine := List.splitOnP_ne_nil (· == '\n') (unifyLineEnds rest)
    have frontLines : lines front = before.splitOnP (· == '\n') := by
      simp [lines, ended, pieces]
    rw [frontLines]
    simp only [lines, unifyLineEnds_append apart, ended, List.append_assoc, List.singleton_append,
      pieces, List.getLast?_append_of_ne_nil _ someLine,
      List.dropLast_append_of_ne_nil someLine]
    split
    · rfl
    · rfl

/-- An unbroken text and a line feed are one line. -/
theorem lines_of_unbroken
    (unbroken : IsUnbroken text) :
    lines (text ++ ['\n']) = [text] := by
  have noReturn : '\r' ∉ text ++ ['\n'] := by
    simp [unbroken.2]
  have whole : text.splitOnP (· == '\n') = [text] := by
    apply List.splitOnP_eq_singleton
    intro c member
    apply beq_false_of_ne
    rintro rfl
    exact unbroken.1 member
  have pieces : (text ++ ['\n']).splitOnP (· == '\n') = [text, []] := by
    rw [List.splitOnP_append_cons text [] rfl, whole]
    rfl
  simp [lines, unifyLineEnds_of_no_return noReturn, pieces]

end LineEnds

/-- A trimmed text has no blanks to lose. -/
theorem trim_trim
    (text : List Char) :
    trim (trim text) = trim text := by
  change ((trim text).dropWhile isBlank).rdropWhile isBlank = trim text
  have begins : (trim text).dropWhile isBlank = trim text := by
    cases shape : trim text with
    | nil =>
        rfl
    | cons c rest =>
        obtain ⟨after, whole⟩ := List.rdropWhile_prefix isBlank (text.dropWhile isBlank)
        change trim text ++ after = text.dropWhile isBlank at whole
        have again := text.dropWhile_idempotent isBlank
        rw [← whole, shape] at again
        have notBlank : ¬isBlank c = true := List.dropWhile_eq_self_iff.mp again (Nat.succ_pos _)
        exact List.dropWhile_cons_of_neg notBlank
  rw [begins]
  exact List.rdropWhile_idempotent ..

end Text

/-- The lines of a text that are not blank, without the blanks around them. -/
def trimmedLines (text : List Char) : List String :=
  (((Text.lines text).map Text.trim).filter fun line => !line.isEmpty).map String.ofList

/-- Lines as they stand in a file, each with a line feed behind it. -/
def recorded (entries : List String) : List Char :=
  entries.flatMap fun entry => entry.toList ++ ['\n']

/-- A line that a history keeps as it is: not empty, trimmed and unbroken. -/
structure IsEntry (line : String) : Prop where
  nonempty : line ≠ ""
  trimmed : Text.trim line.toList = line.toList
  unbroken : Text.IsUnbroken line.toList

section Entries

variable {entries : List String}

/-- Of a history the last hundred lines are read that are not blank. -/
theorem historyEntries_eq
    (text : List Char) :
    historyEntries text = (trimmedLines text).rtake 100 := by
  simp only [historyEntries, trimmedLines, List.rtake, List.map_drop, List.length_map]
  rfl

theorem trimmedLines_append
    {front rest : List Char}
    (terminated : Text.IsTerminated front)
    (apart : Text.JoinsApart front rest) :
    trimmedLines (front ++ rest) = trimmedLines front ++ trimmedLines rest := by
  simp only [trimmedLines, Text.lines_append terminated apart, List.map_append, List.filter_append]

theorem recorded_cons
    (entry : String)
    (rest : List String) :
    recorded (entry :: rest) = entry.toList ++ ['\n'] ++ recorded rest :=
  rfl

theorem recorded_append
    (entries others : List String) :
    recorded (entries ++ others) = recorded entries ++ recorded others :=
  List.flatMap_append

theorem trimmedLines_of_isEntry
    {entry : String}
    (isEntry : IsEntry entry) :
    trimmedLines (entry.toList ++ ['\n']) = [entry] := by
  simp [trimmedLines, Text.lines_of_unbroken isEntry.unbroken, isEntry.trimmed, isEntry.nonempty]

/-- Entries are read back as they are. -/
theorem trimmedLines_recorded
    (kept : ∀ entry ∈ entries, IsEntry entry) :
    trimmedLines (recorded entries) = entries := by
  induction entries with
  | nil =>
      rfl
  | cons entry rest inductionHypothesis =>
      obtain ⟨isEntry, restKept⟩ := List.forall_mem_cons.mp kept
      have terminated : Text.IsTerminated (entry.toList ++ ['\n']) := .inr (.inl (by simp))
      have apart : Text.JoinsApart (entry.toList ++ ['\n']) (recorded rest) := by
        intro last
        simp at last
      rw [recorded_cons, trimmedLines_append terminated apart, trimmedLines_of_isEntry isEntry,
        inductionHypothesis restKept, List.singleton_append]

/-- What is recorded begins with a character of the first entry, and so not with a line feed. -/
theorem joinsApart_recorded
    (kept : ∀ entry ∈ entries, IsEntry entry)
    (text : List Char) :
    Text.JoinsApart text (recorded entries) := by
  intro _ feed
  cases entries with
  | nil =>
      cases feed
  | cons entry rest =>
      obtain ⟨isEntry, -⟩ := List.forall_mem_cons.mp kept
      obtain ⟨c, others, shape⟩ : ∃ c others, entry.toList = c :: others :=
        List.exists_cons_of_ne_nil (by simpa using isEntry.nonempty)
      rw [recorded_cons, shape] at feed
      cases feed
      apply isEntry.unbroken.1
      rw [shape]
      exact List.mem_cons_self

/-- Behind a terminated text, too, entries are read back as they are. -/
theorem trimmedLines_append_recorded
    {text : List Char}
    (terminated : Text.IsTerminated text)
    (kept : ∀ entry ∈ entries, IsEntry entry) :
    trimmedLines (text ++ recorded entries) = trimmedLines text ++ entries := by
  rw [trimmedLines_append terminated (joinsApart_recorded kept text), trimmedLines_recorded kept]

end Entries

end MiniLisp
