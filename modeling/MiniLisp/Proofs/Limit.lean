import MiniLisp.Datum.Parser
import MiniLisp.Proofs.Cutoff

namespace MiniLisp

/-!
# What the limit does

Reading, evaluating and printing are given the nesting they may use.  A limit
only cuts off: a run within a lower limit stops as too deep, or it has the
outcome of the run within any higher limit, be that a result or another fault.

For the reader one token carries the law, for printing one level of lists, and
for evaluation one level of forms, whose law is that of runs that are cut short.
-/

namespace CutShort

variable {α β : Type} {fault : Fault}

/-- A run that the fault did not stop is the full run. -/
theorem eq_of_ne
    {first full : Except Fault α}
    (short : CutShort fault first full)
    (notCut : first ≠ .error fault) :
    full = first := by
  cases short with
  | cut =>
      exact absurd rfl notCut
  | full =>
      rfl

/-- An outcome other than the fault is the outcome of the full run. -/
theorem full_eq
    {first full outcome : Except Fault α}
    (short : CutShort fault first full)
    (ends : first = outcome)
    (notCut : outcome ≠ .error fault) :
    full = outcome := by
  subst ends
  exact short.eq_of_ne notCut

theorem full_ok
    {first full : Except Fault α}
    {result : α}
    (short : CutShort fault first full)
    (ends : first = .ok result) :
    full = .ok result := by
  apply short.full_eq ends
  intro cut
  cases cut

/-- Doing something to each of several things is cut short only where one time is. -/
theorem mapM
    {step fullStep : β → Except Fault α}
    (each : ∀ item, CutShort fault (step item) (fullStep item))
    (items : List β) :
    CutShort fault (items.mapM step) (items.mapM fullStep) := by
  induction items with
  | nil =>
      exact .full _
  | cons item rest inductionHypothesis =>
      rw [List.mapM_cons, List.mapM_cons]
      refine (each item).bind fun result => ?_
      exact inductionHypothesis.bind fun results => .full _

end CutShort

namespace Reader

variable {low high : Nat}

/-- Only opening a list depends on the limit. -/
theorem feed_cutShort
    (higher : low ≤ high)
    (reader : Reader)
    (token : Token) :
    CutShort .tooDeep (reader.feed low token) (reader.feed high token) := by
  cases token with
  | leftParen =>
      by_cases room : reader.opened.length < low
      · have moreRoom : reader.opened.length < high :=
          Nat.lt_of_lt_of_le room higher
        simp only [feed, room, moreRoom, ↓reduceIte]
        exact .full _
      · simp only [feed, room, ↓reduceIte]
        exact .cut _
  | rightParen =>
      exact .full _
  | atom text =>
      exact .full _

theorem untilFinished_cutShort
    (higher : low ≤ high)
    (tokens : List Token)
    (reader : Reader) :
    CutShort .tooDeep
      (reader.untilFinished low tokens)
      (reader.untilFinished high tokens) := by
  induction tokens generalizing reader with
  | nil =>
      exact .full _
  | cons token rest inductionHypothesis =>
      have first := feed_cutShort higher reader token
      rw [untilFinished, untilFinished]
      generalize reader.feed low token = outcome at first ⊢
      generalize reader.feed high token = fullOutcome at first ⊢
      cases first with
      | cut =>
          exact .cut _
      | full =>
          cases outcome with
          | error fault =>
              exact .full _
          | ok next =>
              cases complete : next.finished with
              | nil =>
                  simp only [complete]
                  exact inductionHypothesis next
              | cons datum others =>
                  simp only [complete]
                  exact .full _

theorem untilEnd_cutShort
    (higher : low ≤ high)
    (tokens : List Token)
    (reader : Reader) :
    CutShort .tooDeep (reader.untilEnd low tokens) (reader.untilEnd high tokens) := by
  induction tokens generalizing reader with
  | nil =>
      exact .full _
  | cons token rest inductionHypothesis =>
      have first := feed_cutShort higher reader token
      rw [untilEnd, untilEnd]
      generalize reader.feed low token = outcome at first ⊢
      generalize reader.feed high token = fullOutcome at first ⊢
      cases first with
      | cut =>
          exact .cut _
      | full =>
          cases outcome with
          | error fault =>
              exact .full _
          | ok next =>
              exact inductionHypothesis next

end Reader

section Limits

variable {low high : Nat}

theorem parse_cutShort
    (higher : low ≤ high)
    (source : String) :
    CutShort .tooDeep (parse low source) (parse high source) := by
  have first : CutShort .tooDeep
      (parseOne low (tokenize source)) (parseOne high (tokenize source)) :=
    Reader.untilFinished_cutShort higher (tokenize source) .start
  rw [parse, parse]
  generalize parseOne low (tokenize source) = outcome at first ⊢
  generalize parseOne high (tokenize source) = fullOutcome at first ⊢
  cases first with
  | cut =>
      exact .cut _
  | full =>
      exact .full _

theorem parseMany_cutShort
    (higher : low ≤ high)
    (source : String) :
    CutShort .tooDeep (parseMany low source) (parseMany high source) :=
  Reader.untilEnd_cutShort higher (tokenize source) .start

/-- Printing looks at the limit only to enter a list. -/
theorem render_cutShort
    (higher : low ≤ high) :
    Printer.CutShort .tooDeep (Datum.render low) (Datum.render high) := by
  induction low generalizing high with
  | zero =>
      exact fun datum => .cut _
  | succ low inductionHypothesis =>
      obtain ⟨high, rfl⟩ := Nat.exists_eq_add_one_of_ne_zero (Nat.ne_zero_of_lt higher)
      have below := inductionHypothesis (Nat.le_of_succ_le_succ higher)
      intro datum
      cases datum with
      | list items =>
          exact (CutShort.mapM below items).bind fun texts => .full _
      | _ =>
          exact .full _

/-- Evaluation looks at the limit only to go one level down. -/
theorem evaluate_cutShort
    (higher : low ≤ high) :
    Evaluator.CutShort .tooDeep (evaluate low) (evaluate high) := by
  induction low generalizing high with
  | zero =>
      exact fun expression env => .cut _
  | succ low inductionHypothesis =>
      obtain ⟨high, rfl⟩ := Nat.exists_eq_add_one_of_ne_zero (Nat.ne_zero_of_lt higher)
      have below : low ≤ high := Nat.le_of_succ_le_succ higher
      exact evaluateStep_cutShort (inductionHypothesis below) (render_cutShort below)

/--
A limit only cuts off.  What reading, evaluating or printing ends in within a
limit, unless that is being too deep, it ends in within every higher limit.
-/
theorem limit_only_cuts_off
    (higher : low ≤ high) :
    (∀ source,
      parse low source ≠ .error .tooDeep →
        parse high source = parse low source) ∧
    (∀ source,
      parseMany low source ≠ .error .tooDeep →
        parseMany high source = parseMany low source) ∧
    (∀ expression env,
      evaluate low expression env ≠ .error .tooDeep →
        evaluate high expression env = evaluate low expression env) ∧
    (∀ value : Datum,
      value.render low ≠ .error .tooDeep →
        value.render high = value.render low) :=
  ⟨fun source => (parse_cutShort higher source).eq_of_ne,
    fun source => (parseMany_cutShort higher source).eq_of_ne,
    fun expression env => (evaluate_cutShort higher expression env).eq_of_ne,
    fun value => (render_cutShort higher value).eq_of_ne⟩

end Limits

/--
With two levels a list that is not closed is found, two expressions are read, a
procedure is called and a list is printed; with nine levels all this is the same.
-/
theorem limit_only_cuts_off_two_levels :
    (parse 2 "(f" ≠ .error .tooDeep ∧
      parse 9 "(f" = .error (.parse .missingClose)) ∧
    (parseMany 2 "(()) f" ≠ .error .tooDeep ∧
      parseMany 9 "(()) f" = .ok [.list [.list []], .name "f"]) ∧
    (evaluate 2
          (.list [.name "f", .bool true])
          (.ofList [("f", .procedure ⟨none, ["x"], .name "x", .empty⟩)]) ≠
        .error .tooDeep ∧
      evaluate 9
          (.list [.name "f", .bool true])
          (.ofList [("f", .procedure ⟨none, ["x"], .name "x", .empty⟩)]) =
        .ok (.bool true, .ofList [("f", .procedure ⟨none, ["x"], .name "x", .empty⟩)])) ∧
    ((Datum.list [.nil]).render 2 ≠ .error .tooDeep ∧
      (Datum.list [.nil]).render 9 = .ok "(nil)") := by
  obtain ⟨parsed, parsedMany, evaluated, rendered⟩ :=
    limit_only_cuts_off (show 2 ≤ 9 by decide)
  have unclosed : parse 2 "(f" ≠ .error .tooDeep := nofun
  have pair : parseMany 2 "(()) f" ≠ .error .tooDeep := nofun
  have call :
      evaluate 2
          (.list [.name "f", .bool true])
          (.ofList [("f", .procedure ⟨none, ["x"], .name "x", .empty⟩)]) ≠
        .error .tooDeep := nofun
  have text : (Datum.list [.nil]).render 2 ≠ .error .tooDeep := nofun
  exact ⟨⟨unclosed, parsed _ unclosed⟩, ⟨pair, parsedMany _ pair⟩,
    ⟨call, evaluated _ _ call⟩, ⟨text, rendered _ text⟩⟩

end MiniLisp
