import Mathlib.Data.List.Chain
import MiniLisp.Proofs.Formula
import MiniLisp.Proofs.Limit

namespace MiniLisp

/-!
# Formulas are evaluated to their meaning

The interpreter folds numbers from left to right, relates neighbours and stops at
the first decisive operand.  Here each of these is compared with what a formula
denotes: sums and products, remainders of rounded quotients, relations between all
operands, and the first operand that settles the matter.

One level of evaluation gives a formula its meaning if the levels below do so for
its parts, and induction on the levels gives the law for all formulas.
-/

section Arithmetic

/-- An operation that is exact on integers folds integers to an integer. -/
theorem foldNumbers?_int
    {combine? : Number → Number → Option Number}
    {combine : Int → Int → Int}
    (exact : ∀ a b, combine? (.int a) (.int b) = some (.int (combine a b)))
    (first : Int)
    (rest : List Int) :
    foldNumbers? combine? (.int first) (rest.map .int) =
      some (.int (rest.foldl combine first)) := by
  induction rest generalizing first with
  | nil =>
      rfl
  | cons next rest inductionHypothesis =>
      rw [foldNumbers?, List.map_cons, List.foldlM_cons, exact]
      exact inductionHypothesis (combine first next)

/-- Taking numbers away one by one takes their sum away. -/
theorem foldl_sub (first : Int) (rest : List Int) :
    rest.foldl (· - ·) first = first - rest.sum := by
  induction rest generalizing first with
  | nil =>
      simp
  | cons next rest inductionHypothesis =>
      rw [List.foldl_cons, inductionHypothesis, List.sum_cons, Int.sub_sub]

theorem floor_div_of_pos
    {b : Int}
    (positive : 0 < b)
    (a : Int) :
    ⌊(a / b : ℚ)⌋ = a / b := by
  obtain ⟨n, rfl⟩ := Int.eq_ofNat_of_zero_le positive.le
  exact Rat.floor_intCast_div_natCast a n

/-- Signs of dividend and divisor can be changed together. -/
theorem div_eq_neg_div_neg (a b : Int) : (a / b : ℚ) = ((-a : Int) / (-b : Int) : ℚ) := by
  push_cast
  rw [neg_div_neg_eq]

/-- Division to the floor rounds the quotient down. -/
theorem floor_div_eq_fdiv
    {b : Int}
    (nonzero : b ≠ 0)
    (a : Int) :
    ⌊(a / b : ℚ)⌋ = a.fdiv b := by
  rcases lt_or_gt_of_ne nonzero with negative | positive
  · rw [div_eq_neg_div_neg, floor_div_of_pos (by omega),
      ← Int.fdiv_eq_ediv_of_nonneg _ (by omega), Int.neg_fdiv_neg]
  · rw [floor_div_of_pos positive, Int.fdiv_eq_ediv_of_nonneg _ positive.le]

theorem truncate_div_of_pos
    {b : Int}
    (positive : 0 < b)
    (a : Int) :
    truncate (a / b : ℚ) = a.tdiv b := by
  have positiveCast : (0 : ℚ) < b := Int.cast_pos.mpr positive
  unfold truncate
  rcases le_or_gt 0 a with nonneg | negative
  · have up : (0 : ℚ) ≤ a / b := div_nonneg (by exact_mod_cast nonneg) positiveCast.le
    rw [if_pos up, floor_div_of_pos positive, Int.tdiv_eq_ediv_of_nonneg nonneg]
  · have down : ¬(0 : ℚ) ≤ a / b :=
      not_le_of_gt (div_neg_of_neg_of_pos (Int.cast_lt_zero.mpr negative) positiveCast)
    have mirrored : ((-a : Int) / b : ℚ) = -(a / b) := by
      push_cast
      rw [neg_div]
    rw [if_neg down, ← neg_neg (a / b : ℚ), ← mirrored, Int.ceil_neg, floor_div_of_pos positive,
      ← Int.tdiv_eq_ediv_of_nonneg (by omega), Int.neg_tdiv, neg_neg]

/-- Division toward zero truncates the quotient. -/
theorem truncate_div_eq_tdiv
    {b : Int}
    (nonzero : b ≠ 0)
    (a : Int) :
    truncate (a / b : ℚ) = a.tdiv b := by
  rcases lt_or_gt_of_ne nonzero with negative | positive
  · rw [div_eq_neg_div_neg, truncate_div_of_pos (by omega), Int.neg_tdiv_neg]
  · exact truncate_div_of_pos positive a

/-- A remainder operation that is exact on integers leaves what a rounded quotient leaves. -/
theorem applyRemainder_denotes
    (op : Arithmetic)
    {remainder? : Number → Number → Option Number}
    {rounding : ℚ → Int}
    (exact :
      ∀ a b, b ≠ 0 →
        remainder? (.int a) (.int b) = some (.int (a - b * rounding (a / b))))
    (numbers : List Int) :
    Corresponds (fun error kind => error.kind = kind) (fun number value => number = .int value)
      (applyRemainder op remainder? (numbers.map .int))
      (remainder rounding numbers) := by
  rcases numbers with _ | ⟨a, _ | ⟨b, _ | ⟨c, rest⟩⟩⟩
  · exact .error rfl
  · exact .error rfl
  · by_cases zero : b = 0
    · subst zero
      exact .error rfl
    · simp only [List.map_cons, List.map_nil, applyRemainder, Number.isZero, beq_iff_eq, zero,
        ↓reduceIte, exact a b zero, remainder]
      exact .ok rfl
  · exact .error rfl

/-- Arithmetic on integers gives what the operation on integers does. -/
theorem applyArithmetic_denotes
    (op : IntegerOperation)
    (numbers : List Int) :
    Corresponds (fun error kind => error.kind = kind) (fun number value => number = .int value)
      (applyArithmetic op.arithmetic (numbers.map .int))
      (op.denote numbers) := by
  cases op with
  | sum =>
      have total :
          foldNumbers? Number.add? (.int 0) (numbers.map .int) = some (.int numbers.sum) := by
        rw [List.sum_eq_foldl]
        exact foldNumbers?_int (fun _ _ => rfl) 0 numbers
      simp only [IntegerOperation.arithmetic, applyArithmetic, total]
      exact .ok rfl
  | product =>
      have total :
          foldNumbers? Number.mul? (.int 1) (numbers.map .int) = some (.int numbers.prod) := by
        rw [List.prod_eq_foldl]
        exact foldNumbers?_int (fun _ _ => rfl) 1 numbers
      simp only [IntegerOperation.arithmetic, applyArithmetic, total]
      exact .ok rfl
  | difference =>
      rcases numbers with _ | ⟨first, _ | ⟨next, rest⟩⟩
      · exact .error rfl
      · exact .ok rfl
      · have total :
            foldNumbers? Number.sub? (.int first) ((next :: rest).map .int) =
              some (.int (first - (next :: rest).sum)) := by
          rw [← foldl_sub]
          exact foldNumbers?_int (fun _ _ => rfl) first (next :: rest)
        simp only [List.map_cons] at total
        simp only [IntegerOperation.arithmetic, List.map_cons, applyArithmetic, total]
        exact .ok rfl
  | flooredRemainder =>
      refine applyRemainder_denotes .mod (fun a b nonzero => ?_) numbers
      rw [floor_div_eq_fdiv nonzero, Number.mod?, Int.fmod_def]
  | truncatedRemainder =>
      refine applyRemainder_denotes .rem (fun a b nonzero => ?_) numbers
      rw [truncate_div_eq_tdiv nonzero, Number.rem?, Int.tmod_def]

/-- A comparison of two integers accepts them if they are in its relation. -/
theorem Comparison.accepts_int
    (op : Comparison)
    (a b : Int) :
    op.accepts (Number.compare? (.int a) (.int b)) = true ↔ op.Relates a b := by
  cases op <;>
    simp [accepts, Number.compare?, Relates, Int.compare_eq_lt, Int.compare_eq_gt]

instance (op : Comparison) : Trans op.Relates op.Relates op.Relates where
  trans {a b c} first second := by
    cases op <;> simp only [Comparison.Relates] at * <;> omega

/-- Neighbours are related just if all are, earlier to later: the relations are transitive. -/
theorem chained_iff_pairwise
    (op : Comparison)
    (numbers : List Int) :
    chained (fun x y => op.accepts (Number.compare? x y)) (numbers.map .int) = true ↔
      numbers.Pairwise op.Relates := by
  rw [← List.isChain_iff_pairwise]
  induction numbers with
  | nil =>
      simp [chained]
  | cons first rest inductionHypothesis =>
      cases rest with
      | nil =>
          simp [chained]
      | cons next rest =>
          rw [List.map_cons] at inductionHypothesis
          rw [List.map_cons, List.map_cons, chained, Bool.and_eq_true, Comparison.accepts_int,
            inductionHypothesis, List.isChain_cons_cons]

/-- Each integer equals the first just if all are equal. -/
theorem all_eq_first_iff
    (first : Int)
    (rest : List Int) :
    (rest.map Number.int).all
        (fun other => Comparison.eq.accepts (Number.compare? other (.int first))) = true ↔
      Comparison.eq.Holds (first :: rest) := by
  simp only [List.all_map, List.all_eq_true, Function.comp_apply, Comparison.accepts_int]
  constructor
  · intro same a inList b inListToo
    have equalsFirst (c : Int) (member : c ∈ first :: rest) : c = first := by
      rcases List.mem_cons.mp member with isFirst | inRest
      · exact isFirst
      · exact same c inRest
    rw [equalsFirst a inList, equalsFirst b inListToo]
  · intro allEqual other inRest
    exact allEqual other (List.mem_cons_of_mem first inRest) first List.mem_cons_self

/-- A comparison of integers has the truth of the relation between them. -/
theorem applyComparison_denotes
    (op : Comparison)
    (numbers : List Int) :
    Corresponds (fun error kind => error.kind = kind) (fun value truth => value = truth)
      (applyComparison op (numbers.map .int))
      (op.denote numbers) := by
  rcases numbers with _ | ⟨first, _ | ⟨next, rest⟩⟩
  · exact .error rfl
  · exact .error rfl
  · have several : ¬(first :: next :: rest).length < 2 := by
      simp
    have ordered :
        chained (fun x y => op.accepts (Number.compare? x y)) ((first :: next :: rest).map .int) =
          decide ((first :: next :: rest).Pairwise op.Relates) :=
      Bool.eq_iff_iff.mpr ((chained_iff_pairwise op _).trans decide_eq_true_iff.symm)
    rw [Comparison.denote, if_neg several]
    cases op with
    | eq =>
        have equal := all_eq_first_iff first (next :: rest)
        exact .ok (Bool.eq_iff_iff.mpr (equal.trans decide_eq_true_iff.symm))
    | lt =>
        exact .ok ordered
    | gt =>
        exact .ok ordered
    | le =>
        exact .ok ordered
    | ge =>
        exact .ok ordered

end Arithmetic

/-- An outcome of evaluation that gives a meaning and leaves the bindings as they were. -/
def Denotes (env : Env) : Except Fault (Datum × Env) → Meaning → Prop :=
  Corresponds (fun fault kind => fault.kind = kind) fun result value =>
    result = (value.datum, env)

section Forms

variable {eval : Evaluator} {print : Printer} {env : Env} {meaning : String → Scalar}

theorem Corresponds.liftEval
    {α β : Type}
    {related : α → β → Prop}
    {outcome : Except EvalError α}
    {other : Except FaultKind β}
    (similar : Corresponds (fun error kind => error.kind = kind) related outcome other) :
    Corresponds (fun fault kind => fault.kind = kind) related
      (MiniLisp.liftEval outcome) other := by
  cases similar with
  | error same =>
      exact .error same
  | ok holds =>
      exact .ok holds

/-- Numbers are demanded of scalars where integers are. -/
theorem demandNumbers_denotes
    (word : Word)
    (values : List Scalar) :
    Corresponds (fun error kind => error.kind = kind) (fun numbers ints => numbers = ints.map .int)
      (demandNumbers word (values.map Scalar.datum))
      (integersOf values) := by
  have found :
      (values.map Scalar.datum).mapM Datum.number? =
        (values.mapM Scalar.int?).map (List.map Number.int) := by
    induction values with
    | nil =>
        rfl
    | cons value rest inductionHypothesis =>
        rw [List.map_cons, List.mapM_cons, List.mapM_cons, Scalar.number?_datum, inductionHypothesis]
        cases value.int? with
        | none =>
            rfl
        | some number =>
            cases rest.mapM Scalar.int? <;> rfl
  rw [demandNumbers, found, integersOf]
  cases values.mapM Scalar.int? with
  | none =>
      exact .error rfl
  | some numbers =>
      exact .ok rfl

/-- Operands are evaluated to their meanings, up to the first fault. -/
theorem evaluateArgs_denotes
    {operands : List Formula}
    (each :
      ∀ operand ∈ operands, Denotes env (eval operand.datum env) (operand.denote meaning)) :
    Corresponds (fun fault kind => fault.kind = kind)
      (fun result values => result = (values.map Scalar.datum, env))
      (evaluateArgs eval (Formula.datumAll operands) env)
      ((Formula.denoteAll meaning operands).mapM id) := by
  induction operands with
  | nil =>
      exact .ok rfl
  | cons operand rest inductionHypothesis =>
      rw [Formula.datumAll, Formula.denoteAll, evaluateArgs, List.mapM_cons]
      refine (each operand (by simp)).bind ?_
      rintro _ value rfl
      refine (inductionHypothesis fun other member => each other (by simp [member])).bind ?_
      rintro _ values rfl
      exact .ok rfl

/-- Past an operand that settles nothing its value takes the place of the given one. -/
theorem firstSettled_cons
    (decisive : Scalar → Bool)
    (value next : Scalar)
    (rest : List Meaning) :
    firstSettled decisive value (.ok next :: rest) =
      if decisive next then .ok next else firstSettled decisive next rest := by
  by_cases decided : decisive next = true
  · simp [firstSettled, settles, decided]
  · simp [firstSettled, settles, decided, List.getLast?_cons]

/-- Evaluating up to a decisive value finds the first operand that settles the matter. -/
theorem evaluateUntil_denotes
    {decisive : Datum → Bool}
    {settled : Scalar → Bool}
    (same : ∀ value : Scalar, decisive value.datum = settled value)
    (value : Scalar)
    {operands : List Formula}
    (each :
      ∀ operand ∈ operands, Denotes env (eval operand.datum env) (operand.denote meaning)) :
    Denotes env
      (evaluateUntil eval decisive value.datum (Formula.datumAll operands) env)
      (firstSettled settled value (Formula.denoteAll meaning operands)) := by
  induction operands generalizing value with
  | nil =>
      exact .ok rfl
  | cons operand rest inductionHypothesis =>
      rw [Formula.datumAll, Formula.denoteAll, evaluateUntil]
      have first := each operand (by simp)
      generalize eval operand.datum env = outcome at first ⊢
      generalize operand.denote meaning = meant at first ⊢
      cases first with
      | error kind =>
          exact .error kind
      | @ok _ next found =>
          subst found
          rw [firstSettled_cons]
          change Denotes env (if decisive next.datum then _ else _) _
          rw [same next]
          split
          · exact .ok rfl
          · exact inductionHypothesis next fun other member => each other (by simp [member])

/-- A numeric form demands integers of the values of its operands, then applies its operation. -/
theorem evaluateNumeric_denotes
    {α β : Type}
    (word : Word)
    {apply : List Number → Except EvalError α}
    {denote : List Int → Except FaultKind β}
    {related : α → β → Prop}
    (applied :
      ∀ numbers, Corresponds (fun error kind => error.kind = kind) related
        (apply (numbers.map .int)) (denote numbers))
    {wrap : α → Datum}
    {wrapped : β → Scalar}
    (wraps : ∀ x y, related x y → wrap x = (wrapped y).datum)
    {operands : List Formula}
    (each :
      ∀ operand ∈ operands, Denotes env (eval operand.datum env) (operand.denote meaning)) :
    Denotes env
      (do
        let (values, next) ← evaluateArgs eval (Formula.datumAll operands) env
        let numbers ← liftEval (demandNumbers word values)
        let value ← liftEval (apply numbers)
        .ok (wrap value, next))
      (do
        let values ← (Formula.denoteAll meaning operands).mapM id
        let numbers ← integersOf values
        let result ← denote numbers
        .ok (wrapped result)) := by
  refine (evaluateArgs_denotes each).bind ?_
  rintro _ values rfl
  refine (demandNumbers_denotes word values).liftEval.bind ?_
  rintro _ numbers rfl
  refine (applied numbers).liftEval.bind fun result value holds => ?_
  rw [wraps result value holds]
  exact .ok rfl

theorem evaluateConnective_denotes
    (op : Connective)
    {operands : List Formula}
    (each :
      ∀ operand ∈ operands, Denotes env (eval operand.datum env) (operand.denote meaning)) :
    Denotes env
      (evaluateConnective eval op (Formula.datumAll operands) env)
      (op.denote (Formula.denoteAll meaning operands)) := by
  cases op with
  | conjunction =>
      exact evaluateUntil_denotes (fun value => by rw [value.isTrue_datum]) (.bool true) each
  | disjunction =>
      exact evaluateUntil_denotes Scalar.isTrue_datum (.bool false) each
  | negation =>
      rcases operands with _ | ⟨operand, _ | ⟨_, _⟩⟩
      · exact .error rfl
      · have negated :
            Denotes env
              (eval operand.datum env >>= fun result => .ok (.bool !result.1.isTrue, result.2))
              (operand.denote meaning >>= fun value => .ok (.bool !value.holds)) := by
          refine (each operand (by simp)).bind ?_
          rintro _ value rfl
          dsimp only
          rw [value.isTrue_datum]
          exact .ok rfl
        exact negated
      · exact .error rfl

/-- A conditional evaluates the branch that its condition chooses. -/
theorem evaluateConditional_denotes
    {condition consequence : Formula}
    (alternative? : Option Formula)
    (conditionDenotes :
      Denotes env (eval condition.datum env) (condition.denote meaning))
    (consequenceDenotes :
      Denotes env (eval consequence.datum env) (consequence.denote meaning))
    (alternativeDenotes :
      ∀ alternative ∈ alternative?,
        Denotes env (eval alternative.datum env) (alternative.denote meaning)) :
    Denotes env
      (evaluateConditional eval condition.datum consequence.datum
        (alternative?.map Formula.datum) env)
      (do
        let value ← condition.denote meaning
        if value.holds then
          consequence.denote meaning
        else
          (alternative?.map fun alternative => alternative.denote meaning).getD (.ok .nil)) := by
  refine conditionDenotes.bind ?_
  rintro _ value rfl
  dsimp only
  rw [value.isTrue_datum]
  split
  · exact consequenceDenotes
  · cases alternative? with
    | none =>
        exact .ok rfl
    | some alternative =>
        exact alternativeDenotes alternative rfl

theorem evaluateSpecialForm_conditional_denotes
    {parts : List Formula}
    (each : ∀ part ∈ parts, Denotes env (eval part.datum env) (part.denote meaning)) :
    Denotes env
      (evaluateSpecialForm eval print .conditional (Formula.datumAll parts) env)
      (chooseBranch (Formula.denoteAll meaning parts)) := by
  rcases parts with _ | ⟨condition, _ | ⟨consequence, _ | ⟨alternative, _ | ⟨_, _⟩⟩⟩⟩
  · exact .error rfl
  · exact .error rfl
  · exact evaluateConditional_denotes none
      (each condition (by simp)) (each consequence (by simp)) (by simp)
  · exact evaluateConditional_denotes (some alternative)
      (each condition (by simp)) (each consequence (by simp))
      (by simpa using each alternative (by simp))
  · exact .error rfl

/-- One level of evaluation gives a formula its meaning if the levels below do for its parts. -/
theorem evaluateStep_denotes
    (formula : Formula)
    (bound : ∀ name ∈ formula.names, env.get? name = some (meaning name).datum)
    (each : ∀ part ∈ formula.parts, Denotes env (eval part.datum env) (part.denote meaning)) :
    Denotes env (evaluateStep eval print formula.datum env) (formula.denote meaning) := by
  cases formula with
  | int value =>
      exact .ok rfl
  | bool value =>
      exact .ok rfl
  | name text =>
      have found := bound text List.mem_cons_self
      simp only [Formula.datum, evaluateStep, lookUp, found]
      exact .ok rfl
  | operation op operands =>
      exact evaluateNumeric_denotes _ (applyArithmetic_denotes op)
        (fun number value same => by rw [same]; rfl) each
  | comparison op operands =>
      exact evaluateNumeric_denotes _ (applyComparison_denotes op)
        (fun value truth same => by rw [same]; rfl) each
  | connective op operands =>
      exact evaluateConnective_denotes op each
  | conditional parts =>
      exact evaluateSpecialForm_conditional_denotes each

end Forms

theorem evaluate_denotes
    {env : Env}
    {meaning : String → Scalar}
    {limit : Nat}
    {formula : Formula}
    (bound : ∀ name ∈ formula.names, env.get? name = some (meaning name).datum)
    (enough : formula.height ≤ limit) :
    Denotes env (evaluate limit formula.datum env) (formula.denote meaning) := by
  induction limit generalizing formula with
  | zero =>
      cases formula <;> cases enough
  | succ limit inductionHypothesis =>
      refine evaluateStep_denotes formula bound fun part member => ?_
      apply inductionHypothesis
      · exact fun name inPart => bound name (Formula.names_subset_of_mem_parts member inPart)
      · exact Nat.le_of_lt_succ (Nat.lt_of_lt_of_le (Formula.height_lt_of_mem_parts member) enough)

/-- An outcome that gives a meaning is equal to it, but for what the message of a fault shows. -/
theorem Denotes.mapError_eq
    {env : Env}
    {outcome : Except Fault (Datum × Env)}
    {meant : Meaning}
    (denotes : Denotes env outcome meant) :
    outcome.mapError Fault.kind = meant.map fun value => (value.datum, env) := by
  cases denotes with
  | error same =>
      exact congrArg Except.error same
  | ok found =>
      exact congrArg Except.ok found

/--
A formula has its mathematical meaning.  Given names that are bound to integers,
truth values or nil, evaluation within as many levels as the formula has gives the
value that it denotes and leaves the bindings as they were, or it stops with the
kind of fault that it denotes.  Within fewer levels it does the same or is too deep.
-/
theorem formula_has_its_meaning
    (formula : Formula)
    (env : Env)
    (meaning : String → Scalar)
    (bound : ∀ name ∈ formula.names, env.get? name = some (meaning name).datum) :
    (∀ limit, formula.height ≤ limit →
      (evaluate limit formula.datum env).mapError Fault.kind =
        (formula.denote meaning).map fun value => (value.datum, env)) ∧
    (∀ limit,
      evaluate limit formula.datum env = .error .tooDeep ∨
        (evaluate limit formula.datum env).mapError Fault.kind =
          (formula.denote meaning).map fun value => (value.datum, env)) := by
  have withinHeight (limit : Nat) (enough : formula.height ≤ limit) :=
    (evaluate_denotes bound enough).mapError_eq
  refine ⟨withinHeight, fun limit => ?_⟩
  by_cases enough : formula.height ≤ limit
  · exact .inr (withinHeight limit enough)
  · have fewer : limit ≤ formula.height := Nat.le_of_not_le enough
    have whole := withinHeight formula.height (Nat.le_refl _)
    have short := evaluate_cutShort fewer formula.datum env
    generalize evaluate limit formula.datum env = outcome at short ⊢
    generalize evaluate formula.height formula.datum env = full at short whole
    cases short with
    | cut =>
        exact .inl rfl
    | full =>
        exact .inr whole

/--
With `x` bound to two, `(if (< x 3 5) (mod (- 8 x x) -3))` is the floored remainder
of four by minus three, and `(+ (and x true) (rem x 0))` divides by zero before it
finds that a truth value is no number.
-/
theorem formula_has_its_meaning_mixed :
    let env : Env := .ofList [("x", .number (.int 2))]
    let value : Formula :=
      .conditional
        [.comparison .lt [.name "x", .int 3, .int 5],
         .operation .flooredRemainder
          [.operation .difference [.int 8, .name "x", .name "x"], .int (-3)]]
    let fault : Formula :=
      .operation .sum
        [.connective .conjunction [.name "x", .bool true],
         .operation .truncatedRemainder [.name "x", .int 0]]
    (∀ name ∈ value.names ++ fault.names, env.get? name = some (Scalar.int 2).datum) ∧
      (evaluate 4 value.datum env).mapError Fault.kind = .ok (.number (.int (-2)), env) ∧
      (evaluate 3 fault.datum env).mapError Fault.kind = .error .divisionByZero := by
  intro env value fault
  have bound (name : String) (member : name ∈ value.names ++ fault.names) :
      env.get? name = some (Scalar.int 2).datum := by
    have listed : name ∈ ["x", "x", "x", "x", "x"] := member
    have isX : name = "x" := by simpa using listed
    rw [isX]
    rfl
  have valueMeans :=
    (formula_has_its_meaning value env (fun _ => .int 2)
      (fun name member => bound name (List.mem_append_left _ member))).1 4 (by decide)
  have faultMeans :=
    (formula_has_its_meaning fault env (fun _ => .int 2)
      (fun name member => bound name (List.mem_append_right _ member))).1 3 (by decide)
  have floored : remainder Int.floor [4, -3] = .ok (-2) := by
    norm_num [remainder]
  have denoted : value.denote (fun _ => .int 2) = .ok (.int (-2)) :=
    congrArg (fun result : Except FaultKind Int => result.map Scalar.int) floored
  rw [denoted] at valueMeans
  exact ⟨bound, valueMeans, faultMeans⟩

end MiniLisp
