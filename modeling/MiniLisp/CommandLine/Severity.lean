import MiniLisp.Session

namespace MiniLisp

/-!
# The log threshold

Log messages go to the error output if they are at least as important as a
threshold, which is configured by name.  Names are compared in capitals, the
dotless i and the long s counting as the letters they are capitalised to.
-/

/-- The importance of a severity as a number. -/
def Severity.level : Severity → Nat
  | .debug => 10
  | .warning => 30
  | .error => 40

/-- The capital of a letter, as far as names of thresholds need it. -/
def capital (c : Char) : Char :=
  if c = 'ı' then
    'I'
  else if c = 'ſ' then
    'S'
  else
    c.toUpper

/-- The thresholds that have a name. -/
def namedThresholds : List (String × Nat) :=
  [("CRITICAL", 50), ("FATAL", 50), ("ERROR", 40), ("WARNING", 30), ("WARN", 30),
   ("INFO", 20), ("DEBUG", 10), ("NOTSET", 0)]

/-- The threshold with a configured name; without one, or by an unknown name, that of warnings. -/
def threshold (configured : Option String) : Nat :=
  let name := String.ofList ((configured.getD "").toList.map capital)
  (namedThresholds.lookup name).getD Severity.warning.level

/-- The text that outputs put on the standard output: every text written ends its line. -/
def standardOutput (outputs : List Output) : String :=
  String.join (outputs.map fun
    | .write text => text ++ "\n"
    | .log _ _ => "")

/-- The text that outputs put on the error output under a threshold. -/
def errorOutput (threshold : Nat) (outputs : List Output) : String :=
  String.join (outputs.map fun
    | .write _ => ""
    | .log severity text => if threshold ≤ severity.level then text ++ "\n" else "")

end MiniLisp
