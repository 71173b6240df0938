import Mathlib.Data.Rat.Floor
import MiniLisp.Datum
import MiniLisp.Proofs.Outcome

namespace MiniLisp

/-!
# Formulas over integers and truth values

The forms that compute with integers, compare them, combine truth values and
choose between two branches make up a language of their own: they define nothing
and call nothing.  `Formula` is its syntax, and `Formula.denote` its meaning in
the terms of arithmetic and logic.

Faults come in the order in which they are met.  The operands of a numeric form
come first, then one that is no integer, then a wrong number of operands, and last
a division by zero.  Negation and the conditional count their operands before they
look at any of them.
-/

/-- What a formula can stand for. -/
inductive Scalar where
  | nil
  | bool (value : Bool)
  | int (value : Int)
  deriving Repr, DecidableEq

namespace Scalar

/-- A scalar as a value of the interpreter. -/
def datum : Scalar → Datum
  | .nil => .nil
  | .bool value => .bool value
  | .int value => .number (.int value)

/-- Whether a scalar counts as true: only false and nil do not. -/
def holds : Scalar → Bool
  | .nil => false
  | .bool value => value
  | .int _ => true

/-- The integer that a scalar is, if it is one; truth values are none. -/
def int? : Scalar → Option Int
  | .int value => some value
  | _ => none

theorem isTrue_datum (value : Scalar) : value.datum.isTrue = value.holds := by
  cases value <;> rfl

theorem number?_datum (value : Scalar) : value.datum.number? = value.int?.map .int := by
  cases value <;> rfl

end Scalar

/-- Operations on integers that give an integer. -/
inductive IntegerOperation where
  | sum
  | difference
  | product
  | flooredRemainder
  | truncatedRemainder
  deriving Repr, DecidableEq

/-- The operation on numbers that is meant. -/
def IntegerOperation.arithmetic : IntegerOperation → Arithmetic
  | .sum => .add
  | .difference => .sub
  | .product => .mul
  | .flooredRemainder => .mod
  | .truncatedRemainder => .rem

/-- An expression made of integers, truth values, names and forms on these. -/
inductive Formula where
  | int (value : Int)
  | bool (value : Bool)
  | name (text : String)
  | operation (op : IntegerOperation) (operands : List Formula)
  | comparison (op : Comparison) (operands : List Formula)
  | connective (op : Connective) (operands : List Formula)
  | conditional (parts : List Formula)

namespace Formula

mutual

/-- A formula as an expression of the interpreter. -/
def datum : Formula → Datum
  | .int value => .number (.int value)
  | .bool value => .bool value
  | .name text => .name text
  | .operation op operands => .list (.word (.arithmetic op.arithmetic) :: datumAll operands)
  | .comparison op operands => .list (.word (.comparison op) :: datumAll operands)
  | .connective op operands => .list (.word (.connective op) :: datumAll operands)
  | .conditional parts => .list (.word (.specialForm .conditional) :: datumAll parts)

/-- Formulas as expressions of the interpreter. -/
def datumAll : List Formula → List Datum
  | [] => []
  | formula :: rest => formula.datum :: datumAll rest

end

mutual

/-- The names that a formula refers to. -/
def names : Formula → List String
  | .int _ => []
  | .bool _ => []
  | .name text => [text]
  | .operation _ operands => namesAll operands
  | .comparison _ operands => namesAll operands
  | .connective _ operands => namesAll operands
  | .conditional parts => namesAll parts

/-- The names that formulas refer to. -/
def namesAll : List Formula → List String
  | [] => []
  | formula :: rest => formula.names ++ namesAll rest

end

mutual

/-- The number of levels of a formula. -/
def height : Formula → Nat
  | .int _ => 1
  | .bool _ => 1
  | .name _ => 1
  | .operation _ operands => heightAll operands + 1
  | .comparison _ operands => heightAll operands + 1
  | .connective _ operands => heightAll operands + 1
  | .conditional parts => heightAll parts + 1

/-- The number of levels of the highest among formulas. -/
def heightAll : List Formula → Nat
  | [] => 0
  | formula :: rest => max formula.height (heightAll rest)

end

/-- The formulas that a form is applied to. -/
def parts : Formula → List Formula
  | .int _ => []
  | .bool _ => []
  | .name _ => []
  | .operation _ operands => operands
  | .comparison _ operands => operands
  | .connective _ operands => operands
  | .conditional parts => parts

theorem height_le_heightAll
    {formula : Formula}
    {formulas : List Formula}
    (member : formula ∈ formulas) :
    formula.height ≤ heightAll formulas := by
  induction formulas with
  | nil =>
      cases member
  | cons first rest inductionHypothesis =>
      rw [heightAll]
      rcases List.mem_cons.mp member with rfl | inRest
      · exact Nat.le_max_left _ _
      · exact Nat.le_trans (inductionHypothesis inRest) (Nat.le_max_right _ _)

theorem height_lt_of_mem_parts
    {part formula : Formula}
    (member : part ∈ formula.parts) :
    part.height < formula.height := by
  have below := height_le_heightAll member
  cases formula with
  | int _ =>
      cases member
  | bool _ =>
      cases member
  | name _ =>
      cases member
  | _ =>
      exact Nat.lt_succ_of_le below

theorem names_subset_namesAll
    {formula : Formula}
    {formulas : List Formula}
    (member : formula ∈ formulas) :
    formula.names ⊆ namesAll formulas := by
  induction formulas with
  | nil =>
      cases member
  | cons first rest inductionHypothesis =>
      intro name inFormula
      rw [namesAll, List.mem_append]
      rcases List.mem_cons.mp member with rfl | inRest
      · exact .inl inFormula
      · exact .inr (inductionHypothesis inRest inFormula)

theorem names_subset_of_mem_parts
    {part formula : Formula}
    (member : part ∈ formula.parts) :
    part.names ⊆ formula.names := by
  have included := names_subset_namesAll member
  cases formula with
  | int _ =>
      cases member
  | bool _ =>
      cases member
  | name _ =>
      cases member
  | _ =>
      exact included

end Formula

/-- What a formula means: a scalar, or the kind of fault that it stops with. -/
abbrev Meaning := Except FaultKind Scalar

/-- The integers that values are; a value that is none is of the wrong type. -/
def integersOf (values : List Scalar) : Except FaultKind (List Int) :=
  match values.mapM Scalar.int? with
  | some numbers => .ok numbers
  | none => .error .wrongType

/-- A rational number rounded toward zero. -/
def truncate (q : ℚ) : Int :=
  if 0 ≤ q then ⌊q⌋ else ⌈q⌉

/-- What is left of a dividend after a quotient that is rounded in some way. -/
def remainder (rounding : ℚ → Int) : List Int → Except FaultKind Int
  | [a, b] => if b = 0 then .error .divisionByZero else .ok (a - b * rounding (a / b))
  | _ => .error .wrongArity

/-- The result of an operation on integers. -/
def IntegerOperation.denote : IntegerOperation → List Int → Except FaultKind Int
  | .sum, numbers => .ok numbers.sum
  | .product, numbers => .ok numbers.prod
  | .difference, [] => .error .wrongArity
  | .difference, [n] => .ok (-n)
  | .difference, n :: rest => .ok (n - rest.sum)
  | .flooredRemainder, numbers => remainder Int.floor numbers
  | .truncatedRemainder, numbers => remainder truncate numbers

/-- The relation between two integers that a comparison is about. -/
def Comparison.Relates : Comparison → Int → Int → Prop
  | .eq, a, b => a = b
  | .lt, a, b => a < b
  | .gt, a, b => a > b
  | .le, a, b => a ≤ b
  | .ge, a, b => a ≥ b

instance (op : Comparison) : DecidableRel op.Relates := fun a b =>
  match op with
  | .eq => inferInstanceAs (Decidable (a = b))
  | .lt => inferInstanceAs (Decidable (a < b))
  | .gt => inferInstanceAs (Decidable (a > b))
  | .le => inferInstanceAs (Decidable (a ≤ b))
  | .ge => inferInstanceAs (Decidable (a ≥ b))

/-- All numbers are equal; for an order, every earlier number is so related to every later one. -/
def Comparison.Holds (op : Comparison) (numbers : List Int) : Prop :=
  match op with
  | .eq => ∀ a ∈ numbers, ∀ b ∈ numbers, a = b
  | _ => numbers.Pairwise op.Relates

instance (op : Comparison) (numbers : List Int) : Decidable (op.Holds numbers) :=
  match op with
  | .eq => inferInstanceAs (Decidable (∀ a ∈ numbers, ∀ b ∈ numbers, a = b))
  | .lt => inferInstanceAs (Decidable (numbers.Pairwise (Comparison.Relates .lt)))
  | .gt => inferInstanceAs (Decidable (numbers.Pairwise (Comparison.Relates .gt)))
  | .le => inferInstanceAs (Decidable (numbers.Pairwise (Comparison.Relates .le)))
  | .ge => inferInstanceAs (Decidable (numbers.Pairwise (Comparison.Relates .ge)))

/-- The truth of a comparison, which takes at least two numbers. -/
def Comparison.denote (op : Comparison) (numbers : List Int) : Except FaultKind Bool :=
  if numbers.length < 2 then .error .wrongArity else .ok (decide (op.Holds numbers))

/-- Whether nothing after an operand counts: it is a fault, or its value is decisive. -/
def settles (decisive : Scalar → Bool) : Meaning → Bool
  | .error _ => true
  | .ok value => decisive value

/-- The first operand that settles the matter, else the last one, else a given value. -/
def firstSettled (decisive : Scalar → Bool) (value : Scalar) (operands : List Meaning) : Meaning :=
  (operands.find? (settles decisive)).getD (operands.getLast?.getD (.ok value))

/-- The result of a form on truth values; negation takes one operand. -/
def Connective.denote : Connective → List Meaning → Meaning
  | .conjunction, operands => firstSettled (fun value => !value.holds) (.bool true) operands
  | .disjunction, operands => firstSettled Scalar.holds (.bool false) operands
  | .negation, [operand] => operand.map fun value => .bool !value.holds
  | .negation, _ => .error .wrongArity

/-- One of two branches, by the truth of a condition; a missing branch is nil. -/
def chooseBranch : List Meaning → Meaning
  | [condition, consequence] => do
      let value ← condition
      if value.holds then consequence else .ok .nil
  | [condition, consequence, alternative] => do
      let value ← condition
      if value.holds then consequence else alternative
  | _ => .error .invalidForm

namespace Formula

mutual

/-- The meaning of a formula, given what names stand for. -/
def denote (meaning : String → Scalar) : Formula → Meaning
  | .int value => .ok (.int value)
  | .bool value => .ok (.bool value)
  | .name text => .ok (meaning text)
  | .operation op operands => do
      let values ← (denoteAll meaning operands).mapM id
      let numbers ← integersOf values
      let result ← op.denote numbers
      .ok (.int result)
  | .comparison op operands => do
      let values ← (denoteAll meaning operands).mapM id
      let numbers ← integersOf values
      let result ← op.denote numbers
      .ok (.bool result)
  | .connective op operands => op.denote (denoteAll meaning operands)
  | .conditional parts => chooseBranch (denoteAll meaning parts)

/-- The meanings of formulas. -/
def denoteAll (meaning : String → Scalar) : List Formula → List Meaning
  | [] => []
  | formula :: rest => formula.denote meaning :: denoteAll meaning rest

end

end Formula

end MiniLisp
