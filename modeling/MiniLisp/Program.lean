import MiniLisp.Datum.Parser
import MiniLisp.Evaluation

namespace MiniLisp

/-!
# Programs

A program is a sequence of expressions, each evaluated in the bindings that the
one before left.  Its value is that of the last one; the empty program gives nil.
-/

/-- The number of levels that reading, evaluating and printing may use. -/
def standardLimit : Nat := 500

/-- Evaluates expressions in turn, starting from a value to give if there are none. -/
def evaluateAll (limit : Nat) : List Datum → Datum → Env → Except Fault (Datum × Env)
  | [], value, env => .ok (value, env)
  | expression :: rest, _, env =>
      match evaluate limit expression env with
      | .error fault => .error fault
      | .ok (value, next) => evaluateAll limit rest value next

/-- Reads a whole source text, then evaluates its expressions in turn. -/
def runSource
    (limit : Nat)
    (source : String)
    (value : Datum)
    (env : Env) :
    Except Fault (Datum × Env) :=
  match parseMany limit source with
  | .error fault => .error fault
  | .ok expressions => evaluateAll limit expressions value env

end MiniLisp
