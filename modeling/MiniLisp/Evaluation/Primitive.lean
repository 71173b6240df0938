import MiniLisp.Datum
import MiniLisp.Fault

namespace MiniLisp

/-!
# Primitive operations

What the operations on numbers and on lists do with the values of their
arguments.  Numbers are demanded before their count is looked at, and the count
before any of them is found to be zero.
-/

/-- Combines numbers from left to right; nothing if one step has no result. -/
def foldNumbers?
    (op : Number → Number → Option Number)
    (first : Number)
    (rest : List Number) :
    Option Number :=
  rest.foldlM op first

/-- The result of an arithmetic operation, or that it is past the range of doubles. -/
def inRange (op : Arithmetic) : Option Number → Except EvalError Number
  | some value => .ok value
  | none => .error (.wrongType (.tooLarge op))

/-- Two operands with a divisor other than zero, given to a remainder operation. -/
def applyRemainder
    (op : Arithmetic)
    (remainder? : Number → Number → Option Number) :
    List Number → Except EvalError Number
  | [x, y] =>
      if y.isZero then
        .error .divisionByZero
      else
        inRange op (remainder? x y)
  | numbers => .error (.wrongArity (some (.arithmetic op)) (.exactly 2) numbers.length)

/-- The value of an arithmetic operation on numbers. -/
def applyArithmetic (op : Arithmetic) (numbers : List Number) : Except EvalError Number :=
  match op with
  | .add => inRange op (foldNumbers? Number.add? (.int 0) numbers)
  | .mul => inRange op (foldNumbers? Number.mul? (.int 1) numbers)
  | .sub =>
      match numbers with
      | [] => .error (.wrongArity (some (.arithmetic op)) (.atLeast 1) 0)
      | [x] => .ok x.neg
      | x :: rest => inRange op (foldNumbers? Number.sub? x rest)
  | .div =>
      match numbers with
      | x :: y :: rest =>
          if (y :: rest).any Number.isZero then
            .error .divisionByZero
          else
            inRange op (foldNumbers? Number.div? x (y :: rest))
      | _ => .error (.wrongArity (some (.arithmetic op)) (.atLeast 2) numbers.length)
  | .mod => applyRemainder op Number.mod? numbers
  | .rem => applyRemainder op Number.rem? numbers

/-- Whether an order is one that a comparison accepts; the order of not-a-number never is. -/
def Comparison.accepts (op : Comparison) : Option Ordering → Bool
  | none => false
  | some order =>
      match op with
      | .eq => order == .eq
      | .lt => order == .lt
      | .gt => order == .gt
      | .le => order != .gt
      | .ge => order != .lt

/-- Whether each number stands in the relation to the next one. -/
def chained (related : Number → Number → Bool) : List Number → Bool
  | x :: y :: rest => related x y && chained related (y :: rest)
  | _ => true

/-- The truth of a comparison: equality is with the first number, an order between neighbours. -/
def applyComparison (op : Comparison) (numbers : List Number) : Except EvalError Bool :=
  let related := fun x y => op.accepts (Number.compare? x y)
  match numbers with
  | x :: y :: rest =>
      match op with
      | .eq => .ok ((y :: rest).all fun other => related other x)
      | _ => .ok (chained related numbers)
  | _ => .error (.wrongArity (some (.comparison op)) (.atLeast 2) numbers.length)

/-- The numbers that values are, demanded by an operation. -/
def demandNumbers (op : Word) (values : List Datum) : Except EvalError (List Number) :=
  match values.mapM Datum.number? with
  | some numbers => .ok numbers
  | none => .error (.wrongType (.notNumbers op))

/-- How many arguments a list operation takes; enumeration takes any number. -/
def ListOperation.arity? : ListOperation → Option Nat
  | .first => some 1
  | .rest => some 1
  | .construct => some 2
  | .enumerate => none

/-- The error of a list operation with a number of arguments it does not take. -/
def ListOperation.arityError? (op : ListOperation) (got : Nat) : Option EvalError :=
  op.arity?.bind fun count =>
    if got = count then
      none
    else
      some (.wrongArity (some (.listOperation op)) (.exactly count) got)

/-- Takes a list apart for an operation that needs its head and tail. -/
def demandPair (op : ListOperation) : Datum → Except EvalError (Datum × List Datum)
  | .list (head :: tail) => .ok (head, tail)
  | .list [] => .error (.emptyList op)
  | _ => .error (.wrongType (.notList op))

/-- The value of a list operation. -/
def applyListOperation (op : ListOperation) (values : List Datum) : Except EvalError Datum :=
  match op, values with
  | .enumerate, _ => .ok (.list values)
  | .construct, [head, .list tail] => .ok (.list (head :: tail))
  | .construct, [_, _] => .error (.wrongType .tailNotList)
  | .first, [value] => (demandPair op value).map Prod.fst
  | .rest, [value] => (demandPair op value).map fun pair => .list pair.2
  | _, _ =>
      .error (.wrongArity (some (.listOperation op)) (.exactly (op.arity?.getD 0)) values.length)

end MiniLisp
