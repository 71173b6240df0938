import MiniLisp.Word

namespace MiniLisp

/-!
# What can go wrong

Reading, evaluating and printing stop at the first fault.  The types name the
causes; `Fault.message` has the wording.  Two faults belong to no single form:
something is nested deeper than the limit in force, or an integer has too many
digits to be printed.
-/

/-- Why a source text is no expression. -/
inductive ParseError where
  | unexpectedEnd
  | missingClose
  | numberTooLarge (token : String)
  | trailingTokens (leftover : List String)
  deriving Repr, DecidableEq

/-- How many arguments a form takes. -/
inductive Arity where
  | exactly (count : Nat)
  | atLeast (count : Nat)
  deriving Repr, DecidableEq

/-- How a special form is ill-formed. -/
inductive FormError where
  | conditionalArity (got : Nat)
  | definitionArity (got : Nat)
  | cannotDefine (target : String)
  | badParameter (parameter : String)
  | badAbstraction
  deriving Repr, DecidableEq

/-- Which operand is of the wrong type, or out of range. -/
inductive TypeError where
  | notNumbers (op : Word)
  | tooLarge (op : Arithmetic)
  | tailNotList
  | notList (op : ListOperation)
  deriving Repr, DecidableEq

/-- Why an expression has no value. -/
inductive EvalError where
  | undefinedVariable (name : String)
  | undefinedFunction (name : String)
  | notAFunction (name : String)
  | invalidForm (error : FormError)
  | wrongType (error : TypeError)
  /-- The operation is missing when a procedure was called. -/
  | wrongArity (op : Option Word) (expected : Arity) (got : Nat)
  | divisionByZero
  | emptyList (op : ListOperation)
  | unrecognized (expression : String)
  deriving Repr, DecidableEq

/-- Anything that stops the interpreter. -/
inductive Fault where
  | parse (error : ParseError)
  | eval (error : EvalError)
  | tooDeep
  | tooManyDigits
  deriving Repr, DecidableEq

/-- The most digits of an integer that is read or printed. -/
def maxDigits : Nat := 4300

/-- The number of digits in the message on an oversized literal: minus signs do not count. -/
def literalLength (token : String) : Nat :=
  (token.toList.dropWhile (· == '-')).length

/-- The wording of a parse error. -/
def ParseError.message : ParseError → String
  | .unexpectedEnd => "Unexpected end of input"
  | .missingClose => "Missing closing parenthesis"
  | .numberTooLarge token =>
      "Integer literal too large: " ++ (literalLength token).repr ++ " digits"
  | .trailingTokens leftover => "Bad trailing tokens: " ++ " ".intercalate leftover

/-- The number in an arity. -/
def Arity.count : Arity → Nat
  | .exactly count => count
  | .atLeast count => count

/-- An arity as a quantity: a number, or a least number. -/
def Arity.text : Arity → String
  | .exactly count => count.repr
  | .atLeast count => "at least " ++ count.repr

/-- An arity as a demand on the arguments of an operation. -/
def Arity.demand (arity : Arity) : String :=
  let amount :=
    match arity with
    | .exactly count => "exactly " ++ count.repr
    | .atLeast count => "at least " ++ count.repr
  amount ++ (if arity.count = 1 then " argument" else " arguments")

/-- The wording of an ill-formed special form. -/
def FormError.message : FormError → String
  | .conditionalArity got =>
      "Invalid 'if' form, expected 2-3 arguments, got: " ++ got.repr
  | .definitionArity got =>
      "Invalid 'define' form, expected 2 arguments, got: " ++ got.repr
  | .cannotDefine target => "Cannot define " ++ target
  | .badParameter parameter => "Bad parameter name: " ++ parameter
  | .badAbstraction => "Invalid 'lambda' form, expected a parameter list and a body"

/-- The wording of a type error. -/
def TypeError.message : TypeError → String
  | .notNumbers op => "All arguments to " ++ op.text ++ " must be numbers"
  | .tooLarge op => op.text ++ ": result too large for a float"
  | .tailNotList => ListOperation.construct.text ++ ": second argument must be a list"
  | .notList op => op.text ++ " requires a list argument"

/-- The wording of an evaluation error. -/
def EvalError.message : EvalError → String
  | .undefinedVariable name => "Undefined variable: " ++ name
  | .undefinedFunction name => "Undefined function: " ++ name
  | .notAFunction name => "Not a function: " ++ name
  | .invalidForm error => error.message
  | .wrongType error => error.message
  | .wrongArity none expected got =>
      "Expected " ++ expected.text ++ " arguments, got " ++ got.repr
  | .wrongArity (some op) expected _ => op.text ++ " requires " ++ expected.demand
  | .divisionByZero => "Division by zero"
  | .emptyList op => op.text ++ ": cannot take " ++ op.text ++ " of empty list"
  | .unrecognized expression => "Unrecognized expression: " ++ expression

/-- The wording of a fault. -/
def Fault.message : Fault → String
  | .parse error => error.message
  | .eval error => error.message
  | .tooDeep => "maximum recursion depth exceeded"
  | .tooManyDigits =>
      "Exceeds the limit (" ++ maxDigits.repr ++ " digits) for integer string conversion"

end MiniLisp
