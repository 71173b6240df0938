import MiniLisp.Proofs.Reachability

namespace MiniLisp

/-!
# Which faults can happen

Reading stops with a parse error or too deep.  Evaluation in a session stops with
an evaluation error or too deep; that an integer has too many digits to be
printed never comes up, because error messages show only expressions that were
read, however large the integers that were computed.

Arithmetic checks its operands before it combines them.  `ArithmeticRun` says
what it can come to: no divisor is ever zero, and a result past the range of
doubles is an evaluation error.
-/

/-- The faults that reading is meant to stop with. -/
inductive Fault.OfReading : Fault → Prop where
  | parse (error : ParseError) : OfReading (.parse error)
  | tooDeep : OfReading .tooDeep

namespace Reader

theorem ofReading_of_feed
    {limit : Nat}
    {reader : Reader}
    {token : Token}
    {fault : Fault}
    (fails : reader.feed limit token = .error fault) :
    fault.OfReading := by
  rcases feed_error_cases fails with ⟨-, -, rfl⟩ | ⟨-, -, rfl⟩ | ⟨text, error, -, -, rfl⟩
  · exact .tooDeep
  · exact .parse _
  · exact .parse error

theorem ofReading_of_untilEnd
    {limit : Nat}
    {reader : Reader}
    {tokens : List Token}
    {fault : Fault}
    (fails : reader.untilEnd limit tokens = .error fault) :
    fault.OfReading := by
  induction tokens generalizing reader with
  | nil =>
      rw [untilEnd] at fails
      split at fails
      · cases fails
      · cases fails
        exact .parse _
  | cons token rest inductionHypothesis =>
      rw [untilEnd] at fails
      split at fails
      · next first =>
          cases fails
          exact ofReading_of_feed first
      · exact inductionHypothesis fails

end Reader

theorem ofReading_of_parseOne
    {limit : Nat}
    {tokens : List Token}
    {fault : Fault}
    (fails : parseOne limit tokens = .error fault) :
    fault.OfReading := by
  have stop : Reader.Stop limit .start tokens (parseOne limit tokens) :=
    Reader.stop_untilFinished rfl
  rw [fails] at stop
  cases stop with
  | ended fed none =>
      exact .parse _
  | failed fed none tokenFails =>
      exact Reader.ofReading_of_feed tokenFails

theorem ofReading_of_parse
    {limit : Nat}
    {source : String}
    {fault : Fault}
    (fails : parse limit source = .error fault) :
    fault.OfReading := by
  unfold parse at fails
  split at fails
  · next first =>
      cases fails
      exact ofReading_of_parseOne first
  · cases fails
  · cases fails
    exact .parse _

namespace Arithmetic

/-- Whether an operation takes a given number of numbers. -/
def takes : Arithmetic → Nat → Bool
  | .add, _ => true
  | .mul, _ => true
  | .sub, count => 1 ≤ count
  | .div, count => 2 ≤ count
  | .mod, count => count = 2
  | .rem, count => count = 2

/-- Whether the second operand is a divisor. -/
def divides : Arithmetic → Bool
  | .div => true
  | .mod => true
  | .rem => true
  | _ => false

/-- The number that an operation starts from, if that is not the first of its numbers. -/
def start? : Arithmetic → Option Number
  | .add => some (.int 0)
  | .mul => some (.int 1)
  | _ => none

/-- What an operation makes of two numbers; nothing past the range of doubles. -/
def combine? : Arithmetic → Number → Number → Option Number
  | .add => Number.add?
  | .sub => Number.sub?
  | .mul => Number.mul?
  | .div => Number.div?
  | .mod => Number.mod?
  | .rem => Number.rem?

end Arithmetic

/-- What an arithmetic operation on numbers can come to. -/
inductive ArithmeticRun (op : Arithmetic) (numbers : List Number) :
    Except EvalError Number → Prop where
  /-- There are too few numbers, or too many. -/
  | miscounted
      {expected : Arity}
      (misfit : op.takes numbers.length = false) :
      ArithmeticRun op numbers
        (.error (.wrongArity (some (.arithmetic op)) expected numbers.length))
  /-- A divisor is zero, and nothing is divided. -/
  | zeroDivisor
      {divisor : Number}
      (divides : op.divides = true)
      (member : divisor ∈ numbers.tail)
      (zero : divisor.isZero = true) :
      ArithmeticRun op numbers (.error .divisionByZero)
  /-- A single number changes its sign. -/
  | negated
      {x : Number}
      (minus : op = .sub)
      (single : numbers = [x]) :
      ArithmeticRun op numbers (.ok x.neg)
  /-- The numbers are combined from left to right, and no divisor is zero. -/
  | combined
      {first : Number}
      {rest : List Number}
      (operands : op.start?.toList ++ numbers = first :: rest)
      (several : op = .sub → rest ≠ [])
      (divisors : op.divides = true → ∀ divisor ∈ rest, divisor.isZero = false) :
      ArithmeticRun op numbers (inRange op (foldNumbers? op.combine? first rest))

/-- A remainder is taken of two numbers, the second of which is not zero. -/
theorem applyRemainder_run
    {op : Arithmetic}
    (remainder : op = .mod ∨ op = .rem)
    (numbers : List Number) :
    ArithmeticRun op numbers (applyRemainder op op.combine? numbers) := by
  obtain ⟨starts, divides, takes⟩ :
      op.start? = none ∧ op.divides = true ∧ ∀ count, op.takes count = decide (count = 2) := by
    rcases remainder with rfl | rfl
    · exact ⟨rfl, rfl, fun _ => rfl⟩
    · exact ⟨rfl, rfl, fun _ => rfl⟩
  unfold applyRemainder
  split
  · next x y =>
      split
      · next zero =>
          exact .zeroDivisor divides (List.mem_singleton_self y) zero
      · next nonzero =>
          have once : foldNumbers? op.combine? x [y] = op.combine? x y := by
            simp [foldNumbers?]
          rw [← once]
          refine .combined (by rw [starts]; rfl) (fun _ => List.cons_ne_nil y []) ?_
          intro _ divisor member
          rw [List.mem_singleton.mp member]
          exact Bool.eq_false_iff.mpr nonzero
  · next notTwo =>
      refine .miscounted ?_
      rw [takes]
      refine decide_eq_false fun two => ?_
      obtain ⟨x, y, rfl⟩ := List.length_eq_two.mp two
      exact notTwo x y rfl

/-- Arithmetic checks its operands before it combines them. -/
theorem applyArithmetic_run
    (op : Arithmetic)
    (numbers : List Number) :
    ArithmeticRun op numbers (applyArithmetic op numbers) := by
  cases op with
  | add =>
      exact .combined rfl nofun nofun
  | mul =>
      exact .combined rfl nofun nofun
  | sub =>
      rcases numbers with _ | ⟨x, _ | ⟨y, rest⟩⟩
      · exact .miscounted rfl
      · exact .negated rfl rfl
      · exact .combined rfl (fun _ => List.cons_ne_nil y rest) nofun
  | div =>
      rcases numbers with _ | ⟨x, _ | ⟨y, rest⟩⟩
      · exact .miscounted rfl
      · exact .miscounted rfl
      · unfold applyArithmetic
        dsimp only
        split
        · next found =>
            obtain ⟨divisor, member, zero⟩ := List.any_eq_true.mp found
            exact .zeroDivisor rfl member zero
        · next notFound =>
            refine .combined rfl nofun fun _ divisor member => ?_
            exact Bool.eq_false_iff.mpr fun zero =>
              notFound (List.any_eq_true.mpr ⟨divisor, member, zero⟩)
  | mod =>
      exact applyRemainder_run (.inl rfl) numbers
  | rem =>
      exact applyRemainder_run (.inr rfl) numbers

/--
No fault gets out but those that reading and evaluation are meant to stop with.
This holds of every text that is read, and of every expression that a session
evaluates.  No divisor is ever zero, a result past the range of doubles is a type
error of the operation, and what was read can be printed in a message.
-/
theorem only_intended_faults :
    (∀ limit source fault, parse limit source = .error fault → fault.OfReading) ∧
    (∀ limit source fault, parseMany limit source = .error fault → fault.OfReading) ∧
    (∀ env, Reached env →
      ∀ readLimit source expression, ReadsAs readLimit source expression →
        ∀ limit fault, evaluate limit expression env = .error fault → fault.OfEvaluation) ∧
    (∀ op numbers, ArithmeticRun op numbers (applyArithmetic op numbers)) ∧
    (∀ op, inRange op none = .error (.wrongType (.tooLarge op)) ∧
      (EvalError.wrongType (.tooLarge op)).message =
        op.text ++ ": result too large for a float") ∧
    (∀ expression : Datum, expression.Readable →
      ∀ limit fault, expression.render limit = .error fault → fault = .tooDeep) := by
  refine ⟨fun _ _ _ => ofReading_of_parse, fun _ _ _ => Reader.ofReading_of_untilEnd, ?_,
    applyArithmetic_run, fun op => ⟨rfl, rfl⟩, ?_⟩
  · intro env reached readLimit source expression read limit fault stopped
    exact (evaluate_sound limit expression env read.readable reached.sound).fault stopped
  · intro expression readable limit fault stopped
    exact (readable.render_ends limit).fault stopped

/--
A list that is not closed, lists nested too deep, and a head that is no procedure:
the message on it shows the expression, not the integer in it.
-/
theorem only_intended_faults_message :
    (parse 1 "(" = .error (.parse .missingClose) ∧
      Fault.OfReading (.parse .missingClose)) ∧
    (parseMany 1 "() (())" = .error .tooDeep ∧ Fault.OfReading .tooDeep) ∧
    Reached (.ofList [("x", .number (.int 7))]) ∧
    ReadsAs 2 "((list x))" (.list [.list [.word (.listOperation .enumerate), .name "x"]]) ∧
    evaluate 3
        (.list [.list [.word (.listOperation .enumerate), .name "x"]])
        (.ofList [("x", .number (.int 7))]) =
      .error (.eval (.notAFunction "(list x)")) ∧
    Fault.OfEvaluation (.eval (.notAFunction "(list x)")) := by
  have unclosed : parse 1 "(" = .error (.parse .missingClose) := by
    rfl
  have deep : parseMany 1 "() (())" = .error .tooDeep := by
    rfl
  have defined :
      ReadsAs 1 "(define x 7)"
        (.list [.word (.specialForm .definition), .name "x", .number (.int 7)]) := by
    exact .inl rfl
  have reached : Reached (.ofList [("x", .number (.int 7))]) :=
    .evaluated .start defined (show evaluate 2 _ _ = .ok (.name "x", _) from rfl)
  have read :
      ReadsAs 2 "((list x))" (.list [.list [.word (.listOperation .enumerate), .name "x"]]) := by
    exact .inl rfl
  have stopped :
      evaluate 3
          (.list [.list [.word (.listOperation .enumerate), .name "x"]])
          (.ofList [("x", .number (.int 7))]) =
        .error (.eval (.notAFunction "(list x)")) := by
    rfl
  obtain ⟨parseFaults, parseManyFaults, evaluateFaults, -⟩ := only_intended_faults
  exact ⟨⟨unclosed, parseFaults _ _ _ unclosed⟩, ⟨deep, parseManyFaults _ _ _ deep⟩,
    reached, read, stopped, evaluateFaults _ reached _ _ _ read _ _ stopped⟩

end MiniLisp
