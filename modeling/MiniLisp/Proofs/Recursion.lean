import Mathlib.Data.Nat.Factorial.Basic
import MiniLisp.Program
import MiniLisp.Proofs.Limit

namespace MiniLisp

/-!
# Recursive procedures

A procedure that was defined by name finds itself in its frame, although the
bindings that it captured do not hold it.  Two programs are followed through the
interpreter, the factorial and the Fibonacci numbers.  Both are countdowns: they
compare their number with a bound, and go on from smaller numbers.

For a countdown every call takes three levels more than the calls it makes.  So
the levels that a call needs are known exactly: with these it gives its number,
with fewer it is too deep, and a countdown that never meets its bound is too deep
within every limit.
-/

/-- A call of a procedure, from its own body, with its number lowered. -/
def selfCall (name : String) (lowered : Int) : Datum :=
  .list [.name name, .list [.word (.arithmetic .sub), .name "n", .number (.int lowered)]]

/-- A procedure on one number: within a bound it has a base case, else it takes a step. -/
def countdown
    (name : String)
    (op : Comparison)
    (bound : Int)
    (base step : Datum) :
    Procedure where
  name := some name
  params := ["n"]
  body :=
    .list
      [.word (.specialForm .conditional),
       .list [.word (.comparison op), .name "n", .number (.int bound)],
       base,
       step]
  env := .empty

/-- The outcome of running a procedure on a number, within a number of levels. -/
def runOn (level : Nat) (procedure : Procedure) (n : Int) : Except Fault Datum :=
  applyProcedure (evaluate level) procedure [.number (.int n)]

/-- A number that is found as soon as there are enough levels. -/
def givenLevels (needed level : Nat) (result : Int) : Except Fault Datum :=
  if needed ≤ level then .ok (.number (.int result)) else .error .tooDeep

section Countdown

variable {name : String} {op : Comparison} {bound : Int} {base step : Datum}

/-- In its frame a countdown finds its number. -/
theorem countdown_frame_number
    (n : Int) :
    ((countdown name op bound base step).frame [.number (.int n)]).get? "n" =
      some (.number (.int n)) := by
  simp [Closure.frame, countdown, Bindings.insertAll, Bindings.get?_insert]

/-- In its frame a countdown finds itself, although it captured nothing. -/
theorem countdown_frame_self
    (different : name ≠ "n")
    (n : Int) :
    ((countdown name op bound base step).frame [.number (.int n)]).get? name =
      some (.procedure (countdown name op bound base step)) := by
  simp [Closure.frame, countdown, Bindings.insertAll, Bindings.get?_insert, different]

/-- Three levels are needed to compare the number with the bound. -/
theorem runOn_countdown_of_lt
    {level : Nat}
    (shallow : level < 3)
    (n : Int) :
    runOn level (countdown name op bound base step) n = .error .tooDeep := by
  match level, shallow with
  | 0, _ => rfl
  | 1, _ => rfl
  | 2, _ => rfl

/-- The number of a countdown beside an integer, as arguments of an operation. -/
theorem evaluateArgs_number_literal
    {env : Env}
    {n : Int}
    (found : env.get? "n" = some (.number (.int n)))
    (literal : Int)
    (level : Nat) :
    evaluateArgs (evaluate (level + 1)) [.name "n", .number (.int literal)] env =
      .ok ([.number (.int n), .number (.int literal)], env) := by
  have name : evaluate (level + 1) (.name "n") env = .ok (.number (.int n), env) := by
    simp only [evaluate, evaluateStep, lookUp, found]
  rw [evaluateArgs, name]
  rfl

/-- A countdown compares its number with its bound, and goes on with what that decides. -/
theorem runOn_countdown
    {n : Int}
    {holds : Bool}
    (decides : applyComparison op [.int n, .int bound] = .ok holds)
    (level : Nat) :
    runOn (level + 3) (countdown name op bound base step) n =
      (evaluate (level + 2) (if holds then base else step)
        ((countdown name op bound base step).frame [.number (.int n)])).map Prod.fst := by
  let frame := (countdown name op bound base step).frame [.number (.int n)]
  have test :
      evaluate (level + 2)
          (.list [.word (.comparison op), .name "n", .number (.int bound)]) frame =
        .ok (.bool holds, frame) := by
    rw [evaluate, evaluateStep, evaluateForm,
      evaluateArgs_number_literal (countdown_frame_number n)]
    change (liftEval (applyComparison op [.int n, .int bound]) >>= _) = _
    rw [decides]
    rfl
  have body :
      evaluate (level + 3) (countdown name op bound base step).body frame =
        evaluate (level + 2) (if holds then base else step) frame := by
    change evaluateConditional (evaluate (level + 2)) _ base (some step) frame = _
    rw [evaluateConditional, test]
    cases holds <;> rfl
  change (evaluate (level + 3) (countdown name op bound base step).body frame >>= _) = _
  rw [body]
  cases evaluate (level + 2) (if holds then base else step) frame <;> rfl

/--
A call of a countdown runs it on its argument.  Where the argument is too deep so
is the run, hence two levels for the argument are enough to tell the outcome.
-/
theorem evaluate_countdown_call
    {env : Env}
    {arg : Datum}
    {n : Int}
    (found : env.get? name = some (.procedure (countdown name op bound base step)))
    (argument : ∀ level, evaluate (level + 2) arg env = .ok (.number (.int n), env))
    (level : Nat) :
    evaluate (level + 1) (.list [.name name, arg]) env =
      (runOn level (countdown name op bound base step) n).map fun value => (value, env) := by
  have call :
      evaluate (level + 1) (.list [.name name, arg]) env =
        evaluateCall (evaluate level) (countdown name op bound base step) [arg] env >>=
          fun value => .ok (value, env) := by
    simp only [evaluate, evaluateStep, evaluateNamedCall, found]
  have given (evaluated : evaluate level arg env = .ok (.number (.int n), env)) :
      evaluate (level + 1) (.list [.name name, arg]) env =
        (runOn level (countdown name op bound base step) n).map fun value => (value, env) := by
    have run :
        evaluateCall (evaluate level) (countdown name op bound base step) [arg] env =
          runOn level (countdown name op bound base step) n := by
      rw [evaluateCall, evaluateArgs, evaluated]
      rfl
    rw [call, run]
    cases runOn level (countdown name op bound base step) n <;> rfl
  have short : CutShort .tooDeep (evaluate level arg env) (evaluate (level + 2) arg env) :=
    evaluate_cutShort (Nat.le_add_right level 2) arg env
  rw [argument level] at short
  generalize outcome : evaluate level arg env = first at short
  cases short with
  | full =>
      exact given outcome
  | cut =>
      have shallow : level < 3 := by
        by_contra deep
        obtain ⟨below, rfl⟩ := Nat.exists_eq_add_of_le (Nat.le_of_not_lt deep)
        rw [show 3 + below = (below + 1) + 2 by omega, argument] at outcome
        cases outcome
      rw [runOn_countdown_of_lt shallow, call, evaluateCall, evaluateArgs, outcome]
      rfl

/-- From its own body a countdown is found, and runs on the lowered number. -/
theorem evaluate_selfCall
    (different : name ≠ "n")
    (n lowered : Int)
    (level : Nat) :
    evaluate (level + 1) (selfCall name lowered)
        ((countdown name op bound base step).frame [.number (.int n)]) =
      (runOn level (countdown name op bound base step) (n - lowered)).map fun value =>
        (value, (countdown name op bound base step).frame [.number (.int n)]) := by
  refine evaluate_countdown_call (countdown_frame_self different n) (fun below => ?_) level
  rw [evaluate, evaluateStep, evaluateForm, evaluateArgs_number_literal (countdown_frame_number n)]
  rfl

/-- Within too few levels nothing is found, whatever the result would be. -/
theorem givenLevels_of_lt
    {needed level : Nat}
    (few : level < needed)
    (result : Int) :
    givenLevels needed level result = .error .tooDeep :=
  if_neg (Nat.not_le_of_lt few)

/--
A step that combines two numbers, each found as soon as there are enough levels,
takes three levels more than the one that needs more.
-/
theorem runOn_countdown_step
    {arithmetic : Arithmetic}
    {first second : Datum}
    {n x y result : Int}
    {level firstNeeds secondNeeds : Nat}
    (beyond : applyComparison op [.int n, .int bound] = .ok false)
    (combines : applyArithmetic arithmetic [.int x, .int y] = .ok (.int result)) :
    let procedure :=
      countdown name op bound base (.list [.word (.arithmetic arithmetic), first, second])
    let frame := procedure.frame [.number (.int n)]
    evaluate (level + 1) first frame =
        (givenLevels firstNeeds level x).map (fun value => (value, frame)) →
      evaluate (level + 1) second frame =
        (givenLevels secondNeeds level y).map (fun value => (value, frame)) →
      runOn (level + 3) procedure n =
        givenLevels (max firstNeeds secondNeeds + 3) (level + 3) result := by
  intro procedure frame firstRun secondRun
  have run :
      runOn (level + 3) procedure n =
        (evaluate (level + 2) (.list [.word (.arithmetic arithmetic), first, second]) frame).map
          Prod.fst :=
    runOn_countdown beyond level
  rw [run, evaluate, evaluateStep, evaluateForm, evaluateArgs, firstRun]
  by_cases firstFits : firstNeeds ≤ level
  · by_cases secondFits : secondNeeds ≤ level
    · have enough : max firstNeeds secondNeeds + 3 ≤ level + 3 := by omega
      have secondArg : evaluateArgs (evaluate (level + 1)) [second] frame =
          .ok ([.number (.int y)], frame) := by
        rw [evaluateArgs, secondRun, givenLevels, if_pos secondFits]
        rfl
      rw [givenLevels, if_pos firstFits, givenLevels, if_pos enough]
      simp only [Except.map, bind, Except.bind, secondArg]
      change Except.map Prod.fst ((liftEval (applyArithmetic arithmetic [.int x, .int y])).bind _) = _
      rw [combines]
      rfl
    · have tooFew : level + 3 < max firstNeeds secondNeeds + 3 := by omega
      have secondArg : evaluateArgs (evaluate (level + 1)) [second] frame = .error .tooDeep := by
        rw [evaluateArgs, secondRun, givenLevels, if_neg secondFits]
        rfl
      rw [givenLevels, if_pos firstFits, givenLevels_of_lt tooFew]
      simp only [Except.map, bind, Except.bind, secondArg]
  · have tooFew : level + 3 < max firstNeeds secondNeeds + 3 := by omega
    rw [givenLevels, if_neg firstFits, givenLevels_of_lt tooFew]
    rfl

end Countdown

/-- The definition of the factorial. -/
def factorialSource : String :=
  "\n    (define (factorial n)\n      (if (= n 0)\n          1\n" ++
    "          (* n (factorial (- n 1)))))\n"

/-- The definition of the Fibonacci numbers. -/
def fibonacciSource : String :=
  "\n    (define (fib n)\n      (if (< n 2)\n          n\n" ++
    "          (+ (fib (- n 1)) (fib (- n 2)))))\n"

/-- The factorial: one at zero, else the number times the factorial of the number before. -/
def factorialProcedure : Procedure :=
  countdown "factorial" .eq 0 (.number (.int 1))
    (.list [.word (.arithmetic .mul), .name "n", selfCall "factorial" 1])

/-- The Fibonacci numbers: below two the number itself, else the sum of the two before. -/
def fibonacciProcedure : Procedure :=
  countdown "fib" .lt 2 (.name "n")
    (.list [.word (.arithmetic .add), selfCall "fib" 1, selfCall "fib" 2])

/-- The Fibonacci numbers, continued below zero by the numbers themselves. -/
def fibonacci (n : Int) : Int :=
  if n < 2 then n else fibonacci (n - 1) + fibonacci (n - 2)
termination_by n.toNat

/-- At zero the factorial is one. -/
theorem runOn_factorial_zero (level : Nat) :
    runOn level factorialProcedure 0 = givenLevels 3 level 1 := by
  by_cases deep : 3 ≤ level
  · obtain ⟨below, rfl⟩ := Nat.exists_eq_add_of_le' deep
    have equal : applyComparison .eq [.int 0, .int 0] = .ok true := rfl
    rw [givenLevels, if_pos deep]
    exact runOn_countdown equal below
  · have shallow : level < 3 := Nat.lt_of_not_le deep
    rw [givenLevels_of_lt shallow]
    exact runOn_countdown_of_lt shallow 0

/-- Elsewhere it is the number times the factorial of the number before, three levels up. -/
theorem runOn_factorial_of_ne_zero
    {n previous : Int}
    {needed level : Nat}
    (nonzero : n ≠ 0)
    (before : runOn level factorialProcedure (n - 1) = givenLevels needed level previous) :
    runOn (level + 3) factorialProcedure n =
      givenLevels (needed + 3) (level + 3) (n * previous) := by
  have beyond : applyComparison .eq [.int n, .int 0] = .ok false := by
    simp [applyComparison, Number.compare?, Comparison.accepts, nonzero.symm]
  have combines : applyArithmetic .mul [.int n, .int previous] = .ok (.int (n * previous)) := by
    simp [applyArithmetic, foldNumbers?, Number.mul?, inRange]
  have call :
      evaluate (level + 1) (selfCall "factorial" 1) (factorialProcedure.frame [.number (.int n)]) =
        (givenLevels needed level previous).map fun value =>
          (value, factorialProcedure.frame [.number (.int n)]) := by
    rw [← before]
    exact evaluate_selfCall (by decide) n 1 level
  rw [← Nat.zero_max needed]
  exact runOn_countdown_step beyond combines rfl call

/-- The factorial of `n` is found with three levels for each number down to zero. -/
theorem runOn_factorial (n level : Nat) :
    runOn level factorialProcedure n = givenLevels (3 * n + 3) level n.factorial := by
  induction n generalizing level with
  | zero =>
      exact runOn_factorial_zero level
  | succ n inductionHypothesis =>
      by_cases shallow : level < 3
      · rw [givenLevels_of_lt (by omega)]
        exact runOn_countdown_of_lt shallow _
      · obtain ⟨below, rfl⟩ := Nat.exists_eq_add_of_le' (Nat.le_of_not_lt shallow)
        have before :
            runOn below factorialProcedure (((n + 1 : Nat) : Int) - 1) =
              givenLevels (3 * n + 3) below n.factorial := by
          rw [Int.natCast_succ, Int.add_sub_cancel]
          exact inductionHypothesis below
        rw [runOn_factorial_of_ne_zero (by omega) before, Nat.factorial_succ, Int.natCast_mul]
        rfl

/-- Below zero the countdown never meets its bound. -/
theorem runOn_factorial_of_neg
    {n : Int}
    (negative : n < 0)
    (level : Nat) :
    runOn level factorialProcedure n = .error .tooDeep := by
  induction level using Nat.strongRecOn generalizing n with
  | ind level inductionHypothesis =>
      by_cases shallow : level < 3
      · exact runOn_countdown_of_lt shallow n
      · obtain ⟨below, rfl⟩ := Nat.exists_eq_add_of_le' (Nat.le_of_not_lt shallow)
        have before :
            runOn below factorialProcedure (n - 1) = givenLevels (below + 1) below 0 := by
          rw [givenLevels_of_lt (Nat.lt_succ_self below)]
          exact inductionHypothesis below (by omega) (by omega)
        rw [runOn_factorial_of_ne_zero (by omega) before]
        exact givenLevels_of_lt (by omega) _

theorem applyComparison_lt_pair
    (x y : Int) :
    applyComparison .lt [.int x, .int y] = .ok (decide (x < y)) := by
  have accepted : Comparison.lt.accepts (Number.compare? (.int x) (.int y)) = decide (x < y) := by
    change (compare x y == .lt) = decide (x < y)
    rw [Bool.eq_iff_iff, beq_iff_eq, decide_eq_true_iff]
    exact Int.compare_eq_lt
  simp only [applyComparison, chained, accepted, Bool.and_true]

/-- Below two the number is the answer. -/
theorem runOn_fibonacci_of_lt
    {n : Int}
    (small : n < 2)
    (level : Nat) :
    runOn level fibonacciProcedure n = givenLevels 3 level n := by
  by_cases deep : 3 ≤ level
  · obtain ⟨below, rfl⟩ := Nat.exists_eq_add_of_le' deep
    have within : applyComparison .lt [.int n, .int 2] = .ok true := by
      rw [applyComparison_lt_pair, decide_eq_true small]
    rw [givenLevels, if_pos deep]
    exact runOn_countdown within below
  · have shallow : level < 3 := Nat.lt_of_not_le deep
    rw [givenLevels_of_lt shallow]
    exact runOn_countdown_of_lt shallow n

/-- From two on it is the sum of the two numbers before, three levels up. -/
theorem runOn_fibonacci_of_le
    {n previous before : Int}
    {previousNeeds beforeNeeds level : Nat}
    (large : 2 ≤ n)
    (previousRun :
      runOn level fibonacciProcedure (n - 1) = givenLevels previousNeeds level previous)
    (beforeRun : runOn level fibonacciProcedure (n - 2) = givenLevels beforeNeeds level before) :
    runOn (level + 3) fibonacciProcedure n =
      givenLevels (max previousNeeds beforeNeeds + 3) (level + 3) (previous + before) := by
  have beyond : applyComparison .lt [.int n, .int 2] = .ok false := by
    rw [applyComparison_lt_pair, decide_eq_false (Int.not_lt.mpr large)]
  have combines :
      applyArithmetic .add [.int previous, .int before] = .ok (.int (previous + before)) := by
    simp [applyArithmetic, foldNumbers?, Number.add?, inRange]
  have call
      {lowered value : Int}
      {needs : Nat}
      (run : runOn level fibonacciProcedure (n - lowered) = givenLevels needs level value) :
      evaluate (level + 1) (selfCall "fib" lowered) (fibonacciProcedure.frame [.number (.int n)]) =
        (givenLevels needs level value).map fun found =>
          (found, fibonacciProcedure.frame [.number (.int n)]) := by
    rw [← run]
    exact evaluate_selfCall (by decide) n lowered level
  exact runOn_countdown_step beyond combines (call previousRun) (call beforeRun)

/-- Each Fibonacci number from two on is found three levels above the one before. -/
theorem runOn_fibonacci (n : Int) (level : Nat) :
    runOn level fibonacciProcedure n = givenLevels (3 * max 1 n.toNat) level (fibonacci n) := by
  fun_induction fibonacci n generalizing level with
  | case1 n small =>
      rw [show 3 * max 1 n.toNat = 3 by omega]
      exact runOn_fibonacci_of_lt small level
  | case2 n large previousRun beforeRun =>
      by_cases shallow : level < 3
      · rw [givenLevels_of_lt (by omega)]
        exact runOn_countdown_of_lt shallow n
      · obtain ⟨below, rfl⟩ := Nat.exists_eq_add_of_le' (Nat.le_of_not_lt shallow)
        rw [runOn_fibonacci_of_le (by omega) (previousRun below) (beforeRun below)]
        congr 1
        omega

/-- A text with one expression that can be read and evaluated is run so within more levels. -/
theorem runSource_of_single
    {low limit : Nat}
    {source : String}
    {expression : Datum}
    {env : Env}
    {result : Datum × Env}
    (higher : low ≤ limit)
    (read : parseMany low source = .ok [expression])
    (run : evaluate low expression env = .ok result)
    (value : Datum) :
    runSource limit source value env = .ok result := by
  rw [runSource, (parseMany_cutShort higher source).full_ok read]
  simp only [evaluateAll, (evaluate_cutShort higher expression env).full_ok run]

/-- Where a countdown is all that was defined, a call of it is a run one level down. -/
theorem evaluate_defined_countdown
    {name : String}
    {op : Comparison}
    {bound : Int}
    {base step : Datum}
    (n : Int)
    (level : Nat) :
    let env := Bindings.ofList [(name, .procedure (countdown name op bound base step))]
    evaluate (level + 1) (.list [.name name, .number (.int n)]) env =
      (runOn level (countdown name op bound base step) n).map fun value => (value, env) := by
  intro env
  have found : env.get? name = some (.procedure (countdown name op bound base step)) := by
    simp [env, Bindings.ofList, Bindings.insertAll, Bindings.get?_insert]
  exact evaluate_countdown_call found (fun _ => rfl) level

/-- So a call finds a number with one level more than the run needs. -/
theorem evaluate_defined_countdown_of_runOn
    {name : String}
    {op : Comparison}
    {bound n result : Int}
    {base step : Datum}
    {needed : Nat}
    (run :
      ∀ level,
        runOn level (countdown name op bound base step) n = givenLevels needed level result)
    (limit : Nat) :
    let env := Bindings.ofList [(name, .procedure (countdown name op bound base step))]
    evaluate limit (.list [.name name, .number (.int n)]) env =
      if needed + 1 ≤ limit then .ok (.number (.int result), env) else .error .tooDeep := by
  intro env
  cases limit with
  | zero =>
      rfl
  | succ level =>
      rw [evaluate_defined_countdown, run level, givenLevels]
      by_cases enough : needed ≤ level
      · rw [if_pos enough, if_pos (Nat.succ_le_succ enough)]
        rfl
      · rw [if_neg enough, if_neg fun more => enough (Nat.le_of_succ_le_succ more)]
        rfl

/--
Recursive procedures compute what they say.  Once the definition of the factorial
has been evaluated, a call on a natural number gives its factorial with three
levels for each number down to zero and four more, and with fewer it is too deep;
on a negative number it is too deep within every limit.  A call of the other
procedure gives the Fibonacci number of any integer, or is too deep.  The bindings
are left as they were.
-/
theorem recursive_procedures_compute :
    (∃ env,
      (∀ limit, 5 ≤ limit →
        runSource limit factorialSource .nil .empty = .ok (.name "factorial", env)) ∧
      (∀ (n limit : Nat),
        evaluate limit (.list [.name "factorial", .number (.int n)]) env =
          if 3 * n + 4 ≤ limit then
            .ok (.number (.int n.factorial), env)
          else
            .error .tooDeep) ∧
      (∀ (n : Int), n < 0 → ∀ limit,
        evaluate limit (.list [.name "factorial", .number (.int n)]) env = .error .tooDeep)) ∧
    (∃ env,
      (∀ limit, 5 ≤ limit →
        runSource limit fibonacciSource .nil .empty = .ok (.name "fib", env)) ∧
      (∀ (n : Int) (limit : Nat),
        evaluate limit (.list [.name "fib", .number (.int n)]) env =
          if 3 * max 1 n.toNat + 1 ≤ limit then
            .ok (.number (.int (fibonacci n)), env)
          else
            .error .tooDeep)) := by
  refine ⟨⟨.ofList [("factorial", .procedure factorialProcedure)], ?_, ?_, ?_⟩,
    ⟨.ofList [("fib", .procedure fibonacciProcedure)], ?_, ?_⟩⟩
  · intro limit deep
    have read :
        parseMany 5 factorialSource =
          .ok [.list [.word (.specialForm .definition),
            .list [.name "factorial", .name "n"], factorialProcedure.body]] := rfl
    exact runSource_of_single deep read rfl .nil
  · intro n limit
    exact evaluate_defined_countdown_of_runOn (fun level => runOn_factorial n level) limit
  · intro n negative limit
    cases limit with
    | zero =>
        rfl
    | succ level =>
        have run : runOn level factorialProcedure n = .error .tooDeep :=
          runOn_factorial_of_neg negative level
        exact (evaluate_defined_countdown n level).trans (congrArg _ run)
  · intro limit deep
    have read :
        parseMany 5 fibonacciSource =
          .ok [.list [.word (.specialForm .definition),
            .list [.name "fib", .name "n"], fibonacciProcedure.body]] := rfl
    exact runSource_of_single deep read rfl .nil
  · intro n limit
    exact evaluate_defined_countdown_of_runOn (fun level => runOn_fibonacci n level) limit

/-- Nineteen levels are just enough for the factorial of five; no limit is enough below zero. -/
theorem recursive_procedures_compute_small :
    (∃ env,
      runSource standardLimit factorialSource .nil .empty = .ok (.name "factorial", env) ∧
      evaluate 19 (.list [.name "factorial", .number (.int 5)]) env =
        .ok (.number (.int 120), env) ∧
      evaluate 18 (.list [.name "factorial", .number (.int 5)]) env = .error .tooDeep ∧
      evaluate standardLimit (.list [.name "factorial", .number (.int (-1))]) env =
        .error .tooDeep) ∧
    (∃ env,
      runSource standardLimit fibonacciSource .nil .empty = .ok (.name "fib", env) ∧
      evaluate 31 (.list [.name "fib", .number (.int 10)]) env = .ok (.number (.int 55), env) ∧
      evaluate 4 (.list [.name "fib", .number (.int (-3))]) env =
        .ok (.number (.int (-3)), env)) := by
  obtain ⟨⟨env, defined, computed, divergent⟩, ⟨other, otherDefined, otherComputed⟩⟩ :=
    recursive_procedures_compute
  have ten : fibonacci 10 = 55 := by
    simp [fibonacci]
  have negative : fibonacci (-3) = -3 := by
    simp [fibonacci]
  refine ⟨⟨env, defined _ (by decide), computed 5 19, computed 5 18,
    divergent (-1) (by decide) _⟩, ⟨other, otherDefined _ (by decide), ?_, ?_⟩⟩
  · rw [otherComputed 10 31, ten]
    rfl
  · rw [otherComputed (-3) 4, negative]
    rfl

end MiniLisp
