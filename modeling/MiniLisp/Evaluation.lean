import MiniLisp.Datum.Printer
import MiniLisp.Evaluation.Primitive

namespace MiniLisp

/-!
# Evaluation

Evaluating an expression in bindings gives its value and the bindings it leaves:
definitions add to them, and arguments are evaluated from left to right, each in
the bindings that the one before left.  Calling a procedure leaves the caller's
bindings as they were.

`evaluate` is given the nesting it may use.  Each level is one step, written
with the evaluator for the levels below as an argument; at level zero there is
no answer.
-/

/-- A way to evaluate an expression in bindings. -/
abbrev Evaluator := Datum → Env → Except Fault (Datum × Env)

/-- A way to print a datum. -/
abbrev Printer := Datum → Except Fault String

/-- Stops with an evaluation error. -/
def failWith {α : Type} (error : EvalError) : Except Fault α :=
  .error (.eval error)

/-- The outcome of a primitive operation as an outcome of evaluation. -/
def liftEval {α : Type} : Except EvalError α → Except Fault α
  | .ok value => .ok value
  | .error error => failWith error

/-- The value of a name. -/
def lookUp (name : String) (env : Env) : Except Fault (Datum × Env) :=
  match env.get? name with
  | some value => .ok (value, env)
  | none => failWith (.undefinedVariable name)

/-- The values of arguments, each evaluated in the bindings left by the one before. -/
def evaluateArgs (eval : Evaluator) : List Datum → Env → Except Fault (List Datum × Env)
  | [], env => .ok ([], env)
  | arg :: rest, env => do
      let (value, next) ← eval arg env
      let (values, final) ← evaluateArgs eval rest next
      .ok (value :: values, final)

/-- Evaluates arguments until one is decisive; without a decisive one the last value stands. -/
def evaluateUntil
    (eval : Evaluator)
    (decisive : Datum → Bool)
    (value : Datum) :
    List Datum → Env → Except Fault (Datum × Env)
  | [], env => .ok (value, env)
  | arg :: rest, env => do
      let (next, left) ← eval arg env
      if decisive next then
        .ok (next, left)
      else
        evaluateUntil eval decisive next rest left

/-- The names that a parameter list declares. -/
def parameterNames (print : Printer) : List Datum → Except Fault (List String)
  | [] => .ok []
  | .name text :: rest => do
      let names ← parameterNames print rest
      .ok (text :: names)
  | other :: _ => do
      let text ← print other
      failWith (.invalidForm (.badParameter text))

/-- One branch of a conditional, chosen by the truth of its condition; a missing branch is nil. -/
def evaluateConditional
    (eval : Evaluator)
    (condition consequence : Datum)
    (alternative? : Option Datum)
    (env : Env) :
    Except Fault (Datum × Env) := do
  let (value, next) ← eval condition env
  if value.isTrue then
    eval consequence next
  else
    match alternative? with
    | some alternative => eval alternative next
    | none => .ok (.nil, next)

/-- Binds a name to a value, or to a procedure with parameters; the answer is the name. -/
def evaluateDefinition
    (eval : Evaluator)
    (print : Printer)
    (target body : Datum)
    (env : Env) :
    Except Fault (Datum × Env) :=
  match target with
  | .name text => do
      let (value, next) ← eval body env
      .ok (.name text, next.insert text value)
  | .list (.name text :: params) => do
      let names ← parameterNames print params
      .ok (.name text, env.insert text (.procedure ⟨some text, names, body, env⟩))
  | other => do
      let text ← print other
      failWith (.invalidForm (.cannotDefine text))

/-- Forms with a rule of evaluation of their own. -/
def evaluateSpecialForm
    (eval : Evaluator)
    (print : Printer)
    (form : SpecialForm)
    (args : List Datum)
    (env : Env) :
    Except Fault (Datum × Env) :=
  match form, args with
  | .conditional, [condition, consequence] =>
      evaluateConditional eval condition consequence none env
  | .conditional, [condition, consequence, alternative] =>
      evaluateConditional eval condition consequence (some alternative) env
  | .conditional, _ => failWith (.invalidForm (.conditionalArity args.length))
  | .definition, [target, body] => evaluateDefinition eval print target body env
  | .definition, _ => failWith (.invalidForm (.definitionArity args.length))
  | .abstraction, [.list params, body] => do
      let names ← parameterNames print params
      .ok (.procedure ⟨none, names, body, env⟩, env)
  | .abstraction, _ => failWith (.invalidForm .badAbstraction)

/-- Forms on truth values evaluate no argument after a decisive one. -/
def evaluateConnective
    (eval : Evaluator)
    (op : Connective)
    (args : List Datum)
    (env : Env) :
    Except Fault (Datum × Env) :=
  match op, args with
  | .conjunction, _ => evaluateUntil eval (fun value => !value.isTrue) (.bool true) args env
  | .disjunction, _ => evaluateUntil eval Datum.isTrue (.bool false) args env
  | .negation, [arg] => do
      let (value, next) ← eval arg env
      .ok (.bool !value.isTrue, next)
  | .negation, _ => failWith (.wrongArity (some (.connective op)) (.exactly 1) args.length)

/-- Operations on lists count their arguments before they evaluate them. -/
def evaluateListOperation
    (eval : Evaluator)
    (op : ListOperation)
    (args : List Datum)
    (env : Env) :
    Except Fault (Datum × Env) :=
  match op.arityError? args.length with
  | some error => failWith error
  | none => do
      let (values, next) ← evaluateArgs eval args env
      let value ← liftEval (applyListOperation op values)
      .ok (value, next)

/--
The bindings in which a procedure runs: those it was made in, then its own name
if it has one, then its parameters.
-/
def Closure.frame (procedure : Procedure) (values : List Datum) : Env :=
  let self := procedure.name.toList.map fun name => (name, Datum.procedure procedure)
  procedure.env.insertAll (self ++ procedure.params.zip values)

/-- The value of a procedure for given arguments. -/
def applyProcedure
    (eval : Evaluator)
    (procedure : Procedure)
    (values : List Datum) :
    Except Fault Datum :=
  if values.length = procedure.params.length then do
    let (value, _) ← eval procedure.body (procedure.frame values)
    .ok value
  else
    failWith (.wrongArity none (.exactly procedure.params.length) values.length)

/-- Evaluates the arguments of a call and runs the procedure. -/
def evaluateCall
    (eval : Evaluator)
    (procedure : Procedure)
    (args : List Datum)
    (env : Env) :
    Except Fault Datum := do
  let (values, _) ← evaluateArgs eval args env
  applyProcedure eval procedure values

/-- A call of a procedure by its name. -/
def evaluateNamedCall
    (eval : Evaluator)
    (name : String)
    (args : List Datum)
    (env : Env) :
    Except Fault (Datum × Env) :=
  match env.get? name with
  | none => failWith (.undefinedFunction name)
  | some (.procedure procedure) => do
      let value ← evaluateCall eval procedure args env
      .ok (value, env)
  | some _ => failWith (.notAFunction name)

/-- A call of a procedure that an expression gives; its bindings serve the arguments only. -/
def evaluateComputedCall
    (eval : Evaluator)
    (print : Printer)
    (head : Datum)
    (args : List Datum)
    (env : Env) :
    Except Fault (Datum × Env) := do
  let (value, next) ← eval head env
  match value with
  | .procedure procedure =>
      let result ← evaluateCall eval procedure args next
      .ok (result, env)
  | _ =>
      let text ← print head
      failWith (.notAFunction text)

/-- An expression that is no form of the language. -/
def unrecognized (print : Printer) (expression : Datum) : Except Fault (Datum × Env) := do
  let text ← print expression
  failWith (.unrecognized text)

/-- A form headed by a reserved word. -/
def evaluateForm
    (eval : Evaluator)
    (print : Printer)
    (word : Word)
    (args : List Datum)
    (env : Env) :
    Except Fault (Datum × Env) :=
  match word with
  | .arithmetic op => do
      let (values, next) ← evaluateArgs eval args env
      let numbers ← liftEval (demandNumbers word values)
      let value ← liftEval (applyArithmetic op numbers)
      .ok (.number value, next)
  | .comparison op => do
      let (values, next) ← evaluateArgs eval args env
      let numbers ← liftEval (demandNumbers word values)
      let value ← liftEval (applyComparison op numbers)
      .ok (.bool value, next)
  | .connective op => evaluateConnective eval op args env
  | .listOperation op => evaluateListOperation eval op args env
  | .specialForm form => evaluateSpecialForm eval print form args env
  | .unassigned _ => unrecognized print (.list (.word word :: args))

/-- One level of evaluation, given evaluation and printing for the levels below. -/
def evaluateStep
    (eval : Evaluator)
    (print : Printer)
    (expression : Datum)
    (env : Env) :
    Except Fault (Datum × Env) :=
  match expression with
  | .bool _ => .ok (expression, env)
  | .number _ => .ok (expression, env)
  | .word word => lookUp word.text env
  | .name text => lookUp text env
  | .list (.word word :: args) => evaluateForm eval print word args env
  | .list (.name text :: args) => evaluateNamedCall eval text args env
  | .list (.list items :: args) => evaluateComputedCall eval print (.list items) args env
  | _ => unrecognized print expression

/-- The value of an expression and the bindings it leaves, within a number of levels. -/
def evaluate : Nat → Datum → Env → Except Fault (Datum × Env)
  | 0, _, _ => .error .tooDeep
  | limit + 1, expression, env =>
      evaluateStep (evaluate limit) (Datum.render limit) expression env

end MiniLisp
