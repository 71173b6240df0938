import Mathlib.Data.List.MinMax
import MiniLisp.Evaluation
import MiniLisp.Proofs.Diagnosis
import MiniLisp.Proofs.Readable

namespace MiniLisp

/-!
# How deep a run goes

Reading, printing and evaluating go down one level for a list inside another,
and none for the next token, item or argument.  So a limit a little above the
nesting of what they are given is never reached, however long that is.

For evaluation this holds of expressions whose calls stand in the bodies of
procedures only: a body is not evaluated where it stands, and without a call it
is not evaluated at all.  Error messages are part of the account, since they
print parts of the expression one level below the form that fails.
-/

/-- How many left parentheses of a front are more than its right ones. -/
def excess (front : List Token) : Nat :=
  front.count .leftParen - front.count .rightParen

/-- The nesting of a token sequence: the largest excess of left parentheses in a front. -/
def parenNesting (tokens : List Token) : Nat :=
  (tokens.inits.map excess).foldr max 0

theorem excess_le_parenNesting
    {front tokens : List Token}
    (isFront : front <+: tokens) :
    excess front ≤ parenNesting tokens :=
  List.le_max_of_le' 0 (List.mem_map_of_mem ((List.mem_inits front tokens).mpr isFront)) le_rfl

namespace Reader

/-- A reader that will never have more lists open than a limit allows. -/
def Fits (limit : Nat) (reader : Reader) (tokens : List Token) : Prop :=
  ∀ front, front <+: tokens →
    front.count .leftParen + reader.opened.length ≤ front.count .rightParen + limit

section Reading

variable {limit : Nat} {reader next : Reader} {token : Token} {tokens rest : List Token}

theorem Fits.start
    (shallow : parenNesting tokens ≤ limit) :
    Fits limit .start tokens := by
  intro front isFront
  have bounded := (excess_le_parenNesting isFront).trans shallow
  simp only [Reader.start, List.length_nil]
  unfold excess at bounded
  omega

/-- A token that fits may be wrong, but it does not open one list too many. -/
theorem Fits.fault_ne_tooDeep
    {fault : Fault}
    (fits : Fits limit reader (token :: rest))
    (fails : reader.feed limit token = .error fault) :
    fault ≠ .tooDeep := by
  rcases feed_error_cases fails with ⟨rfl, full, -⟩ | ⟨-, -, rfl⟩ | ⟨text, error, -, -, rfl⟩
  · have opening : 1 + reader.opened.length ≤ 0 + limit :=
      fits [.leftParen] (List.prefix_append [.leftParen] rest)
    omega
  · nofun
  · nofun

/-- What follows a token that was taken fits as well. -/
theorem Fits.feed
    (fits : Fits limit reader (token :: rest))
    (fed : reader.feed limit token = .ok next) :
    Fits limit next rest := by
  intro front isFront
  have longer := fits (token :: front) (List.cons_prefix_cons.mpr ⟨rfl, isFront⟩)
  have one := length_opened_feed fed
  rw [← List.singleton_append, List.count_append, List.count_append] at longer
  omega

theorem Fits.untilFinished_ne_tooDeep
    (fits : Fits limit reader tokens) :
    reader.untilFinished limit tokens ≠ .error .tooDeep := by
  induction tokens generalizing reader with
  | nil =>
      rw [untilFinished]
      intro stopped
      split at stopped
      · cases stopped
      · cases stopped
  | cons token rest inductionHypothesis =>
      rw [untilFinished]
      cases fed : reader.feed limit token with
      | error fault =>
          exact fun stopped => fits.fault_ne_tooDeep fed (Except.error.inj stopped)
      | ok next =>
          cases complete : next.finished with
          | nil =>
              simp only [complete]
              exact inductionHypothesis (fits.feed fed)
          | cons datum others =>
              simp only [complete]
              intro stopped
              cases stopped

theorem Fits.untilEnd_ne_tooDeep
    (fits : Fits limit reader tokens) :
    reader.untilEnd limit tokens ≠ .error .tooDeep := by
  induction tokens generalizing reader with
  | nil =>
      rw [untilEnd]
      intro stopped
      split at stopped
      · cases stopped
      · cases stopped
  | cons token rest inductionHypothesis =>
      rw [untilEnd]
      cases fed : reader.feed limit token with
      | error fault =>
          exact fun stopped => fits.fault_ne_tooDeep fed (Except.error.inj stopped)
      | ok next =>
          exact inductionHypothesis (fits.feed fed)

end Reading

end Reader

section Parsing

variable {limit : Nat} {source : String}

/-- Reading one expression needs no more levels than the parentheses are nested. -/
theorem parse_ne_tooDeep
    (shallow : parenNesting (tokenize source) ≤ limit) :
    parse limit source ≠ .error .tooDeep := by
  have read : parseOne limit (tokenize source) ≠ .error .tooDeep :=
    (Reader.Fits.start shallow).untilFinished_ne_tooDeep
  unfold parse
  split
  · next fault stopped =>
      rw [stopped] at read
      exact fun same => read (congrArg Except.error (Except.error.inj same))
  · nofun
  · nofun

theorem parseMany_ne_tooDeep
    (shallow : parenNesting (tokenize source) ≤ limit) :
    parseMany limit source ≠ .error .tooDeep :=
  (Reader.Fits.start shallow).untilEnd_ne_tooDeep

end Parsing

namespace Datum

theorem nesting_le_nestingIn
    {item : Datum}
    {items : List Datum}
    (member : item ∈ items) :
    item.nesting ≤ nestingIn items := by
  induction items with
  | nil =>
      cases member
  | cons first rest inductionHypothesis =>
      rw [nestingIn]
      rcases List.mem_cons.mp member with rfl | inRest
      · exact le_max_left _ _
      · exact (inductionHypothesis inRest).trans (le_max_right _ _)

theorem nesting_lt_nesting_list
    {item : Datum}
    {items : List Datum}
    (member : item ∈ items) :
    item.nesting < (Datum.list items).nesting := by
  rw [nesting]
  exact Nat.lt_succ_of_le (nesting_le_nestingIn member)

/-- Printing needs one level more than the datum has nested lists. -/
theorem render_ends_of_nesting_lt
    {limit : Nat}
    {datum : Datum}
    (shallow : datum.nesting < limit) :
    Ends (· = .tooManyDigits) (fun _ => True) (datum.render limit) := by
  induction limit generalizing datum with
  | zero =>
      exact absurd shallow (Nat.not_lt_zero _)
  | succ limit inductionHypothesis =>
      cases datum with
      | list items =>
          have texts : Ends (· = .tooManyDigits) _ (items.mapM (render limit)) :=
            .mapM fun item member => inductionHypothesis
              ((nesting_lt_nesting_list member).trans_le (Nat.le_of_lt_succ shallow))
          exact texts.bind fun _ _ => .ok trivial
      | number value =>
          cases value with
          | int n =>
              rw [render, Number.text]
              split
              · exact .ok trivial
              · exact .error rfl
          | float x =>
              exact .ok trivial
      | _ =>
          exact .ok trivial

mutual

/--
Whether no call of a procedure stands in an expression but inside the bodies of
procedures.  Parameter lists and the targets of definitions are no calls.
-/
def isCallFree : Datum → Bool
  | .list (.name _ :: _) => false
  | .list (.list _ :: _) => false
  | .list (.word (.specialForm .abstraction) :: _) => true
  | .list (.word (.specialForm .definition) :: .list _ :: _) => true
  | .list (.word _ :: args) => areCallFree args
  | _ => true

/-- Whether no call stands in any expression of a list but inside the bodies of procedures. -/
def areCallFree : List Datum → Bool
  | [] => true
  | item :: rest => item.isCallFree && areCallFree rest

end

theorem areCallFree_iff
    {items : List Datum} :
    areCallFree items = true ↔ ∀ item ∈ items, item.isCallFree = true := by
  induction items with
  | nil =>
      simp [areCallFree]
  | cons item rest inductionHypothesis =>
      rw [areCallFree, Bool.and_eq_true, inductionHypothesis, List.forall_mem_cons]

end Datum

/--
The faults of evaluation without calls: evaluation errors and, unless the
expression can be read, an integer of too many digits in an error message.
-/
inductive Fault.WithoutCalls (readable : Prop) : Fault → Prop where
  | eval (error : EvalError) : WithoutCalls readable (.eval error)
  | tooManyDigits (unreadable : ¬readable) : WithoutCalls readable .tooManyDigits

/-- A run that does not stop as too deep, but with a result or an intended fault. -/
def Finishes {α : Type} (readable : Prop) : Except Fault α → Prop :=
  Ends (Fault.WithoutCalls readable) fun _ => True

namespace Finishes

variable {α β : Type} {readable : Prop}

theorem ok (value : α) : Finishes readable (.ok value) :=
  Ends.ok trivial

theorem failWith (error : EvalError) : Finishes readable (failWith error : Except Fault α) :=
  Ends.error (.eval error)

theorem liftEval (outcome : Except EvalError α) : Finishes readable (liftEval outcome) := by
  cases outcome with
  | error error =>
      exact .failWith error
  | ok value =>
      exact .ok value

theorem bind
    {outcome : Except Fault α}
    {next : α → Except Fault β}
    (first : Finishes readable outcome)
    (continues : ∀ value, Finishes readable (next value)) :
    Finishes readable (outcome >>= next) :=
  Ends.bind first fun value _ => continues value

end Finishes

/-- A part of an expression, nested below a limit, that can be read if the expression can. -/
structure ShallowPart (readable : Prop) (limit : Nat) (part : Datum) : Prop where
  shallow : part.nesting < limit
  reads : readable → part.Readable

namespace ShallowPart

variable {readable : Prop} {limit : Nat} {part : Datum}

theorem weaken
    (isPart : ShallowPart readable limit part) :
    ShallowPart readable (limit + 1) part :=
  ⟨Nat.lt_succ_of_lt isPart.shallow, isPart.reads⟩

/-- A member of a list is nested one level less. -/
theorem member
    {items : List Datum}
    (isPart : ShallowPart readable (limit + 1) (.list items))
    {item : Datum}
    (inside : item ∈ items) :
    ShallowPart readable limit item where
  shallow := (Datum.nesting_lt_nesting_list inside).trans_le (Nat.le_of_lt_succ isPart.shallow)
  reads canRead := (isPart.reads canRead).member inside

/-- A part that is nested below the limit is printed, if it can be read. -/
theorem render_finishes
    (isPart : ShallowPart readable limit part) :
    Finishes readable (part.render limit) := by
  cases rendered : part.render limit with
  | ok text =>
      exact .ok text
  | error fault =>
      obtain rfl : fault = .tooManyDigits :=
        (Datum.render_ends_of_nesting_lt isPart.shallow).fault rendered
      refine .error (.tooManyDigits fun canRead => ?_)
      -- What can be read has no such integer in it.
      cases ((isPart.reads canRead).render_ends limit).fault rendered

end ShallowPart

/-- An evaluator that finishes on shallow parts without calls. -/
def Evaluator.FinishesWithin (readable : Prop) (limit : Nat) (eval : Evaluator) : Prop :=
  ∀ (part : Datum) (env : Env),
    ShallowPart readable limit part → part.isCallFree = true → Finishes readable (eval part env)

/-- A printer that finishes on shallow parts. -/
def Printer.FinishesWithin (readable : Prop) (limit : Nat) (print : Printer) : Prop :=
  ∀ part : Datum, ShallowPart readable limit part → Finishes readable (print part)

section Forms

variable {readable : Prop} {limit : Nat} {eval : Evaluator} {print : Printer} {env : Env}

theorem lookUp_finishes (name : String) : Finishes readable (lookUp name env) := by
  unfold lookUp
  split
  · exact .ok _
  · exact .failWith _

theorem evaluateArgs_finishes
    {args : List Datum}
    (each : ∀ arg ∈ args, ∀ env, Finishes readable (eval arg env)) :
    Finishes readable (evaluateArgs eval args env) := by
  induction args generalizing env with
  | nil =>
      exact .ok _
  | cons arg rest inductionHypothesis =>
      refine (each arg (by simp) env).bind fun first => ?_
      have others (env : Env) : Finishes readable (evaluateArgs eval rest env) :=
        inductionHypothesis fun arg member => each arg (by simp [member])
      exact (others first.2).bind fun values => .ok _

theorem evaluateUntil_finishes
    (decisive : Datum → Bool)
    (value : Datum)
    {args : List Datum}
    (each : ∀ arg ∈ args, ∀ env, Finishes readable (eval arg env)) :
    Finishes readable (evaluateUntil eval decisive value args env) := by
  induction args generalizing value env with
  | nil =>
      exact .ok _
  | cons arg rest inductionHypothesis =>
      refine (each arg (by simp) env).bind fun first => ?_
      dsimp only
      split
      · exact .ok _
      · exact inductionHypothesis first.1 fun arg member => each arg (by simp [member])

theorem parameterNames_finishes
    (prints : print.FinishesWithin readable limit)
    {params : List Datum}
    (parts : ∀ param ∈ params, ShallowPart readable limit param) :
    Finishes readable (parameterNames print params) := by
  induction params with
  | nil =>
      exact .ok _
  | cons param rest inductionHypothesis =>
      have others := inductionHypothesis fun param member => parts param (by simp [member])
      cases param with
      | name text =>
          exact others.bind fun names => .ok _
      | _ =>
          exact (prints _ (parts _ (by simp))).bind fun text => .failWith _

theorem evaluateConditional_finishes
    {condition consequence : Datum}
    {alternative? : Option Datum}
    (conditionFinishes : ∀ env, Finishes readable (eval condition env))
    (consequenceFinishes : ∀ env, Finishes readable (eval consequence env))
    (alternativeFinishes : ∀ alternative ∈ alternative?, ∀ env,
      Finishes readable (eval alternative env)) :
    Finishes readable (evaluateConditional eval condition consequence alternative? env) := by
  refine (conditionFinishes env).bind fun first => ?_
  dsimp only
  split
  · exact consequenceFinishes first.2
  · cases alternative? with
    | none =>
        exact .ok _
    | some alternative =>
        exact alternativeFinishes alternative rfl first.2

/-- A definition evaluates its body, or makes a procedure of it, or prints its target. -/
theorem evaluateDefinition_finishes
    (prints : print.FinishesWithin readable (limit + 1))
    {target body : Datum}
    (targetPart : ShallowPart readable (limit + 1) target)
    (bodyFinishes : ∀ text, target = .name text → Finishes readable (eval body env)) :
    Finishes readable (evaluateDefinition eval print target body env) := by
  unfold evaluateDefinition
  split
  · next text =>
      exact (bodyFinishes text rfl).bind fun result => .ok _
  · next text params =>
      have paramParts (param : Datum) (member : param ∈ params) :
          ShallowPart readable (limit + 1) param :=
        (targetPart.member (List.mem_cons_of_mem _ member)).weaken
      exact (parameterNames_finishes prints paramParts).bind fun names => .ok _
  · exact (prints target targetPart).bind fun text => .failWith _

theorem evaluateSpecialForm_finishes
    (evals : eval.FinishesWithin readable limit)
    (prints : print.FinishesWithin readable (limit + 1))
    {form : SpecialForm}
    {args : List Datum}
    (isPart : ShallowPart readable (limit + 1) (.list (.word (.specialForm form) :: args)))
    (callFree : (Datum.list (.word (.specialForm form) :: args)).isCallFree = true) :
    Finishes readable (evaluateSpecialForm eval print form args env) := by
  have argPart {arg : Datum} (member : arg ∈ args) : ShallowPart readable limit arg :=
    isPart.member (List.mem_cons_of_mem _ member)
  unfold evaluateSpecialForm
  split
  · next condition consequence =>
      have free := Datum.areCallFree_iff.mp callFree
      exact evaluateConditional_finishes
        (fun env => evals condition env (argPart (by simp)) (free _ (by simp)))
        (fun env => evals consequence env (argPart (by simp)) (free _ (by simp)))
        (by simp)
  · next condition consequence alternative =>
      have free := Datum.areCallFree_iff.mp callFree
      refine evaluateConditional_finishes
        (fun env => evals condition env (argPart (by simp)) (free _ (by simp)))
        (fun env => evals consequence env (argPart (by simp)) (free _ (by simp))) ?_
      rintro other ⟨⟩ env
      exact evals alternative env (argPart (by simp)) (free _ (by simp))
  · exact .failWith _
  · next target body =>
      refine evaluateDefinition_finishes prints (argPart (by simp)).weaken ?_
      rintro text rfl
      have free := Datum.areCallFree_iff.mp callFree
      exact evals body env (argPart (by simp)) (free body (by simp))
  · exact .failWith _
  · next params body =>
      have paramsPart : ShallowPart readable (limit + 1) (.list params) :=
        (argPart (by simp)).weaken
      have paramParts (param : Datum) (member : param ∈ params) :
          ShallowPart readable (limit + 1) param :=
        (paramsPart.member member).weaken
      exact (parameterNames_finishes prints paramParts).bind fun names => .ok _
  · exact .failWith _

theorem evaluateConnective_finishes
    (op : Connective)
    {args : List Datum}
    (each : ∀ arg ∈ args, ∀ env, Finishes readable (eval arg env)) :
    Finishes readable (evaluateConnective eval op args env) := by
  unfold evaluateConnective
  split
  · exact evaluateUntil_finishes _ _ each
  · exact evaluateUntil_finishes _ _ each
  · next arg =>
      exact (each arg (by simp) env).bind fun result => .ok _
  · exact .failWith _

theorem evaluateListOperation_finishes
    (op : ListOperation)
    {args : List Datum}
    (each : ∀ arg ∈ args, ∀ env, Finishes readable (eval arg env)) :
    Finishes readable (evaluateListOperation eval op args env) := by
  unfold evaluateListOperation
  split
  · exact .failWith _
  · refine (evaluateArgs_finishes each).bind fun values => ?_
    exact (Finishes.liftEval _).bind fun value => .ok _

theorem evaluateNumeric_finishes
    {α : Type}
    (word : Word)
    (apply : List Number → Except EvalError α)
    (wrap : α → Datum)
    {args : List Datum}
    (each : ∀ arg ∈ args, ∀ env, Finishes readable (eval arg env)) :
    Finishes readable (do
      let (values, next) ← evaluateArgs eval args env
      let numbers ← liftEval (demandNumbers word values)
      let value ← liftEval (apply numbers)
      .ok (wrap value, next)) := by
  refine (evaluateArgs_finishes each).bind fun values => ?_
  refine (Finishes.liftEval _).bind fun numbers => ?_
  exact (Finishes.liftEval _).bind fun value => .ok _

theorem unrecognized_finishes
    (prints : print.FinishesWithin readable limit)
    {expression : Datum}
    (isPart : ShallowPart readable limit expression) :
    Finishes readable (unrecognized print expression) :=
  (prints expression isPart).bind fun _ => .failWith _

theorem evaluateForm_finishes
    (evals : eval.FinishesWithin readable limit)
    (prints : print.FinishesWithin readable (limit + 1))
    {word : Word}
    {args : List Datum}
    (isPart : ShallowPart readable (limit + 1) (.list (.word word :: args)))
    (callFree : (Datum.list (.word word :: args)).isCallFree = true) :
    Finishes readable (evaluateForm eval print word args env) := by
  have each
      (free : Datum.areCallFree args = true)
      (arg : Datum) (member : arg ∈ args) (env : Env) :
      Finishes readable (eval arg env) :=
    evals arg env (isPart.member (List.mem_cons_of_mem _ member))
      (Datum.areCallFree_iff.mp free arg member)
  cases word with
  | arithmetic op =>
      exact evaluateNumeric_finishes _ (applyArithmetic op) .number (each callFree)
  | comparison op =>
      exact evaluateNumeric_finishes _ (applyComparison op) .bool (each callFree)
  | connective op =>
      exact evaluateConnective_finishes op (each callFree)
  | listOperation op =>
      exact evaluateListOperation_finishes op (each callFree)
  | specialForm form =>
      exact evaluateSpecialForm_finishes evals prints isPart callFree
  | unassigned word =>
      exact unrecognized_finishes prints isPart

/-- One level of evaluation finishes on parts that are nested one level more. -/
theorem evaluateStep_finishes
    (evals : eval.FinishesWithin readable limit)
    (prints : print.FinishesWithin readable (limit + 1)) :
    Evaluator.FinishesWithin readable (limit + 1) (evaluateStep eval print) := by
  intro expression env isPart callFree
  unfold evaluateStep
  split
  · exact .ok _
  · exact .ok _
  · exact lookUp_finishes _
  · exact lookUp_finishes _
  · exact evaluateForm_finishes evals prints isPart callFree
  · cases callFree
  · cases callFree
  · exact unrecognized_finishes prints isPart

end Forms

/-- Evaluation without calls finishes within one level more than printing does. -/
theorem evaluate_finishes
    (readable : Prop)
    (limit : Nat) :
    Evaluator.FinishesWithin readable limit (evaluate (limit + 1)) := by
  induction limit with
  | zero =>
      intro part env isPart
      exact absurd isPart.shallow (Nat.not_lt_zero _)
  | succ limit inductionHypothesis =>
      exact evaluateStep_finishes inductionHypothesis fun part isPart => isPart.render_finishes

/--
How deep a run goes is bounded by nesting, whatever the length.  There is a
constant such that no limit above its product with the nesting, counted from one,
stops the reading of a text, the printing of a value, or the evaluation of an
expression whose calls all stand in the bodies of procedures.  Such an evaluation
ends with a result or an evaluation error or, if the expression is none that can
be read, at an integer of too many digits for a message.
-/
theorem depth_bounded_by_nesting :
    ∃ c : Nat,
      (∀ (source : String) (limit : Nat),
        c * (parenNesting (tokenize source) + 1) < limit →
          parse limit source ≠ .error .tooDeep ∧
            parseMany limit source ≠ .error .tooDeep) ∧
      (∀ (value : Datum) (limit : Nat),
        c * (value.nesting + 1) < limit → value.render limit ≠ .error .tooDeep) ∧
      (∀ (expression : Datum) (env : Env) (limit : Nat),
        expression.isCallFree = true →
          c * (expression.nesting + 1) < limit →
            (∃ result, evaluate limit expression env = .ok result) ∨
              (∃ error, evaluate limit expression env = .error (.eval error)) ∨
              (¬expression.Readable ∧
                evaluate limit expression env = .error .tooManyDigits)) := by
  refine ⟨1, ?_, ?_, ?_⟩
  · intro source limit enough
    have shallow : parenNesting (tokenize source) ≤ limit := by
      omega
    exact ⟨parse_ne_tooDeep shallow, parseMany_ne_tooDeep shallow⟩
  · intro value limit enough stopped
    have ends := Datum.render_ends_of_nesting_lt (show value.nesting < limit by omega)
    cases ends.fault stopped
  · intro expression env limit callFree enough
    obtain ⟨below, rfl⟩ := Nat.exists_eq_add_one_of_ne_zero (Nat.ne_zero_of_lt enough)
    have whole : ShallowPart expression.Readable below expression :=
      ⟨by omega, id⟩
    have finishes := evaluate_finishes expression.Readable below expression env whole callFree
    cases outcome : evaluate (below + 1) expression env with
    | ok result =>
        exact .inl ⟨result, rfl⟩
    | error fault =>
        cases finishes.fault outcome with
        | eval error =>
            exact .inr (.inl ⟨error, rfl⟩)
        | tooManyDigits unreadable =>
            exact .inr (.inr ⟨unreadable, rfl⟩)

/--
Three lists in a row are read, a list in a list is printed, and an expression with
calls in the bodies of a definition and of a procedure without a name is evaluated.
-/
theorem depth_bounded_by_nesting_bodies :
    ∃ c : Nat,
      parseMany (c * 2 + 1) "() () ()" ≠ .error .tooDeep ∧
      (Datum.list [.list [], .nil]).render (c * 3 + 1) ≠ .error .tooDeep ∧
      evaluate (c * 4 + 1)
          (.list
            [.word (.listOperation .enumerate),
             .list
              [.word (.specialForm .definition),
               .list [.name "f", .name "x"],
               .list [.name "f", .name "x"]],
             .list
              [.word (.specialForm .abstraction),
               .list [],
               .list [.name "f", .bool true]]])
          .empty ≠
        .error .tooDeep := by
  obtain ⟨c, reads, prints, evaluates⟩ := depth_bounded_by_nesting
  have nested : parenNesting (tokenize "() () ()") = 1 := by
    rfl
  have enough : c * (parenNesting (tokenize "() () ()") + 1) < c * 2 + 1 := by
    rw [nested]
    exact Nat.lt_succ_self _
  have notDeep
      {expression : Datum}
      {limit : Nat}
      (callFree : expression.isCallFree = true)
      (above : c * (expression.nesting + 1) < limit) :
      evaluate limit expression .empty ≠ .error .tooDeep := by
    intro stopped
    rcases evaluates expression .empty limit callFree above with
      ⟨result, value⟩ | ⟨error, failed⟩ | ⟨-, digits⟩
    · cases value.symm.trans stopped
    · cases failed.symm.trans stopped
    · cases digits.symm.trans stopped
  exact ⟨c, (reads _ _ enough).2, prints _ _ (Nat.lt_succ_self _),
    notDeep rfl (Nat.lt_succ_self _)⟩

end MiniLisp
