namespace MiniLisp

/-!
# Reserved words

The words that name the operations and forms of the language.  They can never
be names of variables.  Three of them are reserved without having a meaning.
-/

/-- Operations on numbers that give a number. -/
inductive Arithmetic where
  | add
  | sub
  | mul
  | div
  | mod
  | rem
  deriving Repr, DecidableEq

/-- Relations between numbers. -/
inductive Comparison where
  | eq
  | lt
  | gt
  | le
  | ge
  deriving Repr, DecidableEq

/-- Forms on truth values. -/
inductive Connective where
  | conjunction
  | disjunction
  | negation
  deriving Repr, DecidableEq

/-- Operations on lists. -/
inductive ListOperation where
  | first
  | rest
  | construct
  | enumerate
  deriving Repr, DecidableEq

/-- Forms with a rule of evaluation of their own. -/
inductive SpecialForm where
  | conditional
  | definition
  | abstraction
  deriving Repr, DecidableEq

/-- Words that are reserved and mean nothing yet. -/
inductive Unassigned where
  | clauses
  | binding
  | quotation
  deriving Repr, DecidableEq

/-- A reserved word. -/
inductive Word where
  | arithmetic (op : Arithmetic)
  | comparison (op : Comparison)
  | connective (op : Connective)
  | listOperation (op : ListOperation)
  | specialForm (form : SpecialForm)
  | unassigned (word : Unassigned)
  deriving Repr, DecidableEq

/-- The spelling of an arithmetic operation. -/
def Arithmetic.text : Arithmetic → String
  | .add => "+"
  | .sub => "-"
  | .mul => "*"
  | .div => "/"
  | .mod => "mod"
  | .rem => "rem"

/-- The spelling of a comparison. -/
def Comparison.text : Comparison → String
  | .eq => "="
  | .lt => "<"
  | .gt => ">"
  | .le => "<="
  | .ge => ">="

/-- The spelling of a connective. -/
def Connective.text : Connective → String
  | .conjunction => "and"
  | .disjunction => "or"
  | .negation => "not"

/-- The spelling of a list operation. -/
def ListOperation.text : ListOperation → String
  | .first => "car"
  | .rest => "cdr"
  | .construct => "cons"
  | .enumerate => "list"

/-- The spelling of a special form. -/
def SpecialForm.text : SpecialForm → String
  | .conditional => "if"
  | .definition => "define"
  | .abstraction => "lambda"

/-- The spelling of a word without a meaning. -/
def Unassigned.text : Unassigned → String
  | .clauses => "cond"
  | .binding => "let"
  | .quotation => "quote"

namespace Word

/-- The spelling of a reserved word. -/
def text : Word → String
  | .arithmetic op => op.text
  | .comparison op => op.text
  | .connective op => op.text
  | .listOperation op => op.text
  | .specialForm form => form.text
  | .unassigned word => word.text

/-- All reserved words. -/
def all : List Word :=
  [.arithmetic .add, .arithmetic .sub, .arithmetic .mul, .arithmetic .div,
   .arithmetic .mod, .arithmetic .rem,
   .comparison .eq, .comparison .lt, .comparison .gt, .comparison .le, .comparison .ge,
   .connective .conjunction, .connective .disjunction, .connective .negation,
   .listOperation .first, .listOperation .rest, .listOperation .construct,
   .listOperation .enumerate,
   .specialForm .conditional, .specialForm .definition, .specialForm .abstraction,
   .unassigned .clauses, .unassigned .binding, .unassigned .quotation]

/-- The reserved word with a given spelling. -/
def ofText? (text : String) : Option Word :=
  all.find? fun word => word.text == text

/-- The list of reserved words is complete. -/
theorem mem_all (word : Word) : word ∈ all := by
  rcases word with op | op | op | op | form | word
  · cases op <;> decide
  · cases op <;> decide
  · cases op <;> decide
  · cases op <;> decide
  · cases form <;> decide
  · cases word <;> decide

/-- Every reserved word is found by its spelling. -/
theorem ofText?_text (word : Word) : ofText? word.text = some word := by
  rcases word with op | op | op | op | form | word
  · cases op <;> decide
  · cases op <;> decide
  · cases op <;> decide
  · cases op <;> decide
  · cases form <;> decide
  · cases word <;> decide

end Word

end MiniLisp
