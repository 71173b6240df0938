import MiniLisp.Bindings
import MiniLisp.Number
import MiniLisp.Word

namespace MiniLisp

/-!
# Data

Programs and values are made of the same stuff.  A source text reads as data
made of literals, reserved words, names and lists; evaluation gives data made of
literals, lists and procedures, the value nil, and the name that a definition
answers with.
-/

/--
A procedure: its parameters and its body, the bindings that were in force where
it was made, and its name if it was defined with one.
-/
structure Closure (α : Type) where
  name : Option String
  params : List String
  body : α
  env : Bindings α

/-- An expression or a value. -/
inductive Datum where
  | nil
  | bool (value : Bool)
  | number (value : Number)
  | word (word : Word)
  | name (text : String)
  | list (items : List Datum)
  | procedure (closure : Closure Datum)

/-- The bindings in which expressions are evaluated. -/
abbrev Env := Bindings Datum

/-- A procedure of the language. -/
abbrev Procedure := Closure Datum

instance : Inhabited Datum :=
  ⟨.nil⟩

namespace Datum

/-- Only false and nil count as false. -/
def isTrue : Datum → Bool
  | .nil => false
  | .bool value => value
  | _ => true

/-- The number that a datum is, if it is one; truth values are none. -/
def number? : Datum → Option Number
  | .number value => some value
  | _ => none

/-- The name that a datum is, if it is one; reserved words are none. -/
def name? : Datum → Option String
  | .name text => some text
  | _ => none

end Datum

end MiniLisp
