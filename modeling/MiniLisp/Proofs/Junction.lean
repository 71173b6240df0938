import MiniLisp.Proofs.Settled

namespace MiniLisp

/-!
# Conjunction, disjunction and negation

The arguments of a conjunction or a disjunction are expressions like any others:
they may define names, call procedures and stop with faults.  They are evaluated
from left to right up to the first one whose value decides the matter, and nothing
of what stands after it takes part.

Negation turns one of these forms into the other, with all effects: the arguments
that are evaluated, the bindings that they leave and the fault that stops them are
the same on both sides.
-/

/-- A form on truth values that takes any number of arguments. -/
inductive Junction where
  | conjunction
  | disjunction
  deriving Repr, DecidableEq

namespace Junction

/-- The connective that a junction is written with. -/
def connective : Junction → Connective
  | .conjunction => .conjunction
  | .disjunction => .disjunction

/-- The truth of a junction without arguments. -/
def neutral : Junction → Bool
  | .conjunction => true
  | .disjunction => false

/-- Whether a value decides a junction: a false one of a conjunction, a true one of a disjunction. -/
def decides : Junction → Datum → Bool
  | .conjunction, value => !value.isTrue
  | .disjunction, value => value.isTrue

/-- The junction of the negated arguments. -/
def dual : Junction → Junction
  | .conjunction => .disjunction
  | .disjunction => .conjunction

/-- A junction as an expression. -/
def form (junction : Junction) (args : List Datum) : Datum :=
  .list (.word (.connective junction.connective) :: args)

end Junction

/-- The negation of an expression. -/
def negated (expression : Datum) : Datum :=
  .list [.word (.connective .negation), expression]

/-- A value and the bindings beside it, after the value was negated. -/
def negateResult (result : Datum × Env) : Datum × Env :=
  (.bool !result.1.isTrue, result.2)

namespace Junction

/-- Arguments evaluated in turn, none of which decides a junction. -/
structure Undecided
    (junction : Junction)
    (args : List Datum)
    (env : Env)
    (values : List Datum)
    (left : Env) :
    Prop where
  inTurn : InTurn args env values left
  none : ∀ value ∈ values, junction.decides value = false

/--
What a junction comes to by its arguments, evaluated in turn: the first fault, the
first decisive value with the bindings right after it, or else the last value, if
there are arguments at all.
-/
inductive Answers
    (junction : Junction)
    (start : Datum)
    (args : List Datum)
    (env : Env) :
    Except Fault (Datum × Env) → Prop where
  | raised
      {before after values : List Datum}
      {arg : Datum}
      {next : Env}
      {fault : Fault}
      (shape : args = before ++ arg :: after)
      (undecided : junction.Undecided before env values next)
      (stops : (evaluation arg next).Settles (.error fault)) :
      Answers junction start args env (.error fault)
  | decided
      {before after values : List Datum}
      {arg value : Datum}
      {next left : Env}
      (shape : args = before ++ arg :: after)
      (undecided : junction.Undecided before env values next)
      (evaluated : (evaluation arg next).Settles (.ok (value, left)))
      (decisive : junction.decides value = true) :
      Answers junction start args env (.ok (value, left))
  | exhausted
      {values : List Datum}
      {left : Env}
      (undecided : junction.Undecided args env values left) :
      Answers junction start args env (.ok (values.getLastD start, left))

/-- The search for a decisive argument, within any limit. -/
def search (junction : Junction) (start : Datum) (args : List Datum) (env : Env) :
    Run (Datum × Env) where
  within limit := evaluateUntil (evaluate limit) junction.decides start args env
  cutShort higher := evaluateUntil_cutShort (evaluate_cutShort higher) _ start args env

section Search

variable
  {junction : Junction}
  {start arg value : Datum}
  {args before values : List Datum}
  {env next : Env}

/-- A junction is evaluated one level above its arguments. -/
theorem evaluate_form
    (junction : Junction)
    (args : List Datum)
    (env : Env)
    (limit : Nat) :
    evaluate (limit + 1) (junction.form args) env =
      evaluateUntil (evaluate limit) junction.decides (.bool junction.neutral) args env := by
  cases junction <;> rfl

theorem evaluation_form_equivalent
    (junction : Junction)
    (args : List Datum)
    (env : Env) :
    (evaluation (junction.form args) env).Equivalent
      (junction.search (.bool junction.neutral) args env) :=
  .of_levels 1 0 (evaluate_form junction args env)

/-- The search evaluates an argument, and goes on if its value is not decisive. -/
theorem settles_search_cons_iff
    {outcome : Except Fault (Datum × Env)} :
    (junction.search start (arg :: args) env).Settles outcome ↔
      (∃ fault, (evaluation arg env).Settles (.error fault) ∧ outcome = .error fault) ∨
      (∃ value next, (evaluation arg env).Settles (.ok (value, next)) ∧
        junction.decides value = true ∧ outcome = .ok (value, next)) ∨
      (∃ value next, (evaluation arg env).Settles (.ok (value, next)) ∧
        junction.decides value = false ∧
          (junction.search value args next).Settles outcome) := by
  let continued (result : Datum × Env) : Run (Datum × Env) :=
    if junction.decides result.1 then .pure result else junction.search result.1 args result.2
  have step :
      (junction.search start (arg :: args) env).Equivalent
        ((evaluation arg env).bind continued) := by
    refine .of_levels 0 0 fun limit => ?_
    change (evaluate limit arg env >>= _) = (evaluate limit arg env >>= _)
    congr
    funext result
    dsimp only [continued]
    split <;> rfl
  have goesOn (value : Datum) (next : Env) :
      (continued (value, next)).Settles outcome ↔
        junction.decides value = true ∧ outcome = .ok (value, next) ∨
          junction.decides value = false ∧ (junction.search value args next).Settles outcome := by
    dsimp only [continued]
    cases junction.decides value with
    | false =>
        simp
    | true =>
        simp [Run.settles_pure_iff]
  rw [step, Run.settles_bind_iff, Prod.exists]
  simp only [goesOn, and_or_left, exists_or]

/-- Arguments that decide nothing are passed over, and the last value is kept. -/
theorem Undecided.settles_search_iff
    (undecided : junction.Undecided before env values next)
    {outcome : Except Fault (Datum × Env)} :
    (junction.search start (before ++ args) env).Settles outcome ↔
      (junction.search (values.getLastD start) args next).Settles outcome := by
  obtain ⟨inTurn, none⟩ := undecided
  induction inTurn generalizing start with
  | nil env =>
      rfl
  | @cons expression value rest values env next left first later inductionHypothesis =>
      obtain ⟨notDecisive, noneLater⟩ := List.forall_mem_cons.mp none
      rw [List.getLastD_cons, ← inductionHypothesis noneLater, List.cons_append,
        settles_search_cons_iff]
      constructor
      · rintro (⟨fault, stops, -⟩ | ⟨other, follow, evaluated, decisive, -⟩ |
          ⟨other, follow, evaluated, -, continues⟩)
        · cases stops.unique first
        · cases evaluated.unique first
          rw [notDecisive] at decisive
          cases decisive
        · cases evaluated.unique first
          exact continues
      · intro continues
        exact .inr (.inr ⟨value, next, first, notDecisive, continues⟩)

/-- An argument that decides nothing may stand before arguments that are answered. -/
theorem Answers.cons
    (evaluated : (evaluation arg env).Settles (.ok (value, next)))
    (notDecisive : junction.decides value = false)
    {outcome : Except Fault (Datum × Env)}
    (answers : junction.Answers value args next outcome) :
    junction.Answers start (arg :: args) env outcome := by
  have also {before values : List Datum} {last : Env}
      (undecided : junction.Undecided before next values last) :
      junction.Undecided (arg :: before) env (value :: values) last :=
    ⟨.cons evaluated undecided.inTurn, List.forall_mem_cons.mpr ⟨notDecisive, undecided.none⟩⟩
  cases answers with
  | raised shape undecided stops =>
      exact .raised (congrArg (List.cons arg) shape) (also undecided) stops
  | decided shape undecided found decisive =>
      exact .decided (congrArg (List.cons arg) shape) (also undecided) found decisive
  | exhausted undecided =>
      rw [← List.getLastD_cons (a := start)]
      exact .exhausted (also undecided)

theorem undecided_nil
    (junction : Junction)
    (env : Env) :
    junction.Undecided [] env [] env :=
  ⟨.nil env, nofun⟩

/-- The search settles on the answer that the arguments give, evaluated in turn. -/
theorem settles_search_iff_answers
    {outcome : Except Fault (Datum × Env)} :
    (junction.search start args env).Settles outcome ↔
      junction.Answers start args env outcome := by
  constructor
  · intro settles
    induction args generalizing start env with
    | nil =>
        cases Run.settles_pure_iff.mp settles
        exact .exhausted (undecided_nil junction env)
    | cons arg rest inductionHypothesis =>
        rcases settles_search_cons_iff.mp settles with
          ⟨fault, stops, rfl⟩ | ⟨value, next, evaluated, decisive, rfl⟩ |
          ⟨value, next, evaluated, notDecisive, continues⟩
        · exact .raised rfl (undecided_nil junction env) stops
        · exact .decided rfl (undecided_nil junction env) evaluated decisive
        · exact .cons evaluated notDecisive (inductionHypothesis continues)
  · intro answers
    cases answers with
    | raised shape undecided stops =>
        rw [shape, undecided.settles_search_iff, settles_search_cons_iff]
        exact .inl ⟨_, stops, rfl⟩
    | decided shape undecided evaluated decisive =>
        rw [shape, undecided.settles_search_iff, settles_search_cons_iff]
        exact .inr (.inl ⟨_, _, evaluated, decisive, rfl⟩)
    | exhausted undecided =>
        rw [← List.append_nil args, undecided.settles_search_iff]
        exact Run.settles_pure_iff.mpr rfl

end Search

/--
Conjunction and disjunction take their arguments in turn, each as a step of its own
in the bindings left by the one before, up to the first that stops or is decisive.
They come to what this argument came to, or else to the last value, and to nothing
else.  Of what stands after a decisive argument the outcome does not depend at all.
-/
theorem form_short_circuits
    (junction : Junction)
    (env : Env) :
    (∀ args outcome,
      (evaluation (junction.form args) env).Settles outcome ↔
        junction.Answers (.bool junction.neutral) args env outcome) ∧
    (∀ before values next arg value left,
      junction.Undecided before env values next →
        (evaluation arg next).Settles (.ok (value, left)) →
          junction.decides value = true →
            ∀ after outcome,
              (evaluation (junction.form (before ++ arg :: after)) env).Settles outcome ↔
                outcome = .ok (value, left)) := by
  have answered (args : List Datum) (outcome : Except Fault (Datum × Env)) :
      (evaluation (junction.form args) env).Settles outcome ↔
        junction.Answers (.bool junction.neutral) args env outcome :=
    (evaluation_form_equivalent junction args env outcome).trans settles_search_iff_answers
  refine ⟨answered, ?_⟩
  intro before values next arg value left undecided evaluated decisive after outcome
  have settles :
      (evaluation (junction.form (before ++ arg :: after)) env).Settles (.ok (value, left)) :=
    (answered _ _).mpr (.decided rfl undecided evaluated decisive)
  constructor
  · intro settlesToo
    exact settlesToo.unique settles
  · rintro rfl
    exact settles

/--
The first argument defines `x` and answers with its name, which decides nothing.
The second is false, so that whatever follows it stays without effect.
-/
theorem form_short_circuits_defining :
    let definition : Datum := .list [.word (.specialForm .definition), .name "x", .bool true]
    let left : Env := .ofList [("x", .bool true)]
    conjunction.Undecided [definition] .empty [.name "x"] left ∧
      (evaluation (.bool false) left).Settles (.ok (.bool false, left)) ∧
      ∀ after outcome,
        (evaluation (conjunction.form ([definition] ++ .bool false :: after)) .empty).Settles
            outcome ↔
          outcome = .ok (.bool false, left) := by
  intro definition left
  have defined : (evaluation definition .empty).Settles (.ok (.name "x", left)) :=
    ⟨nofun, 2, rfl⟩
  have undecided : conjunction.Undecided [definition] .empty [.name "x"] left := by
    refine ⟨.cons defined (.nil left), fun value member => ?_⟩
    rw [List.mem_singleton.mp member]
    rfl
  have evaluated : (evaluation (.bool false) left).Settles (.ok (.bool false, left)) :=
    ⟨nofun, 1, rfl⟩
  exact ⟨undecided, evaluated,
    (form_short_circuits conjunction .empty).2 _ _ _ _ _ _ undecided evaluated rfl⟩

/-- The negated value decides the dual junction just if the value decides the junction. -/
theorem dual_decides
    (junction : Junction)
    (value : Datum) :
    junction.dual.decides (.bool !value.isTrue) = junction.decides value := by
  cases junction with
  | conjunction =>
      rfl
  | disjunction =>
      exact Bool.not_not _

theorem dual_neutral (junction : Junction) : junction.dual.neutral = !junction.neutral := by
  cases junction <;> rfl

end Junction

/-- A negation is evaluated one level above its argument. -/
theorem evaluate_negated
    (expression : Datum)
    (env : Env)
    (limit : Nat) :
    evaluate (limit + 1) (negated expression) env =
      (evaluate limit expression env).map negateResult := by
  change (evaluate limit expression env >>= _) = _
  cases evaluate limit expression env <;> rfl

/-- The search among negated arguments stops at the same one, with the negated value. -/
theorem evaluateUntil_negated
    (junction : Junction)
    (start : Datum)
    (args : List Datum)
    (env : Env)
    (limit : Nat) :
    evaluateUntil (evaluate (limit + 1)) junction.dual.decides (.bool !start.isTrue)
        (args.map negated) env =
      (evaluateUntil (evaluate limit) junction.decides start args env).map negateResult := by
  induction args generalizing start env with
  | nil =>
      rfl
  | cons arg rest inductionHypothesis =>
      rw [List.map_cons, evaluateUntil, evaluateUntil, evaluate_negated]
      cases evaluate limit arg env with
      | error fault =>
          rfl
      | ok result =>
          change
            (if junction.dual.decides (.bool !result.1.isTrue) then _ else _) =
              Except.map negateResult (if junction.decides result.1 then _ else _)
          rw [junction.dual_decides]
          split
          · rfl
          · exact inductionHypothesis result.1 result.2

/-- The negation of a junction is the dual junction of the negated arguments. -/
theorem evaluate_negated_form
    (junction : Junction)
    (args : List Datum)
    (env : Env)
    (limit : Nat) :
    evaluate (limit + 2) (negated (junction.form args)) env =
      evaluate (limit + 2) (junction.dual.form (args.map negated)) env := by
  rw [evaluate_negated, junction.evaluate_form, junction.dual.evaluate_form, junction.dual_neutral]
  exact (evaluateUntil_negated junction (.bool junction.neutral) args env limit).symm

/-- A conditional with both branches, as an expression. -/
def conditional (condition consequence alternative : Datum) : Datum :=
  .list [.word (.specialForm .conditional), condition, consequence, alternative]

/-- A conditional goes on with one of its branches after its condition. -/
theorem evaluation_conditional_equivalent
    (condition consequence alternative : Datum)
    (env : Env) :
    (evaluation (conditional condition consequence alternative) env).Equivalent
      ((evaluation condition env).bind fun result =>
        evaluation (if result.1.isTrue then consequence else alternative) result.2) := by
  refine .of_levels 1 0 fun limit => ?_
  change (evaluate limit condition env >>= _) = (evaluate limit condition env >>= _)
  congr
  funext result
  dsimp only [evaluation]
  split <;> rfl

theorem evaluation_negated_equivalent
    (expression : Datum)
    (env : Env) :
    (evaluation (negated expression) env).Equivalent
      ((evaluation expression env).bind fun result => .pure (negateResult result)) :=
  .of_levels 1 0 fun _ => rfl

/-- A conditional on a negation chooses as the one with its branches exchanged. -/
theorem evaluation_conditional_negated_equivalent
    (condition consequence alternative : Datum)
    (env : Env) :
    (evaluation (conditional (negated condition) alternative consequence) env).Equivalent
      (evaluation (conditional condition consequence alternative) env) := by
  have branch (result : Datum × Env) :
      evaluation (if (negateResult result).1.isTrue then alternative else consequence)
          (negateResult result).2 =
        evaluation (if result.1.isTrue then consequence else alternative) result.2 := by
    change evaluation (if (!result.1.isTrue) then _ else _) result.2 = _
    cases result.1.isTrue <;> rfl
  refine (evaluation_conditional_equivalent _ _ _ env).trans ?_
  refine ((evaluation_negated_equivalent condition env).bind fun _ => .refl _).trans ?_
  simp only [Run.bind_assoc, Run.pure_bind, branch]
  exact (evaluation_conditional_equivalent _ _ _ env).symm

/--
Negation turns conjunction into disjunction of the negated arguments, and back, and
exchanges the branches of a conditional.  Both sides come to the same value and the
same bindings, or to the same fault, whatever the parts are.
-/
theorem negation_laws
    (env : Env) :
    (∀ args,
      (evaluation (negated (Junction.conjunction.form args)) env).Equivalent
        (evaluation (Junction.disjunction.form (args.map negated)) env)) ∧
    (∀ args,
      (evaluation (negated (Junction.disjunction.form args)) env).Equivalent
        (evaluation (Junction.conjunction.form (args.map negated)) env)) ∧
    (∀ condition consequence alternative,
      (evaluation (conditional (negated condition) alternative consequence) env).Equivalent
        (evaluation (conditional condition consequence alternative) env)) := by
  refine ⟨fun args => ?_, fun args => ?_, fun condition consequence alternative => ?_⟩
  · exact .of_levels 2 2 (evaluate_negated_form .conjunction args env)
  · exact .of_levels 2 2 (evaluate_negated_form .disjunction args env)
  · exact evaluation_conditional_negated_equivalent condition consequence alternative env

end MiniLisp
