import MiniLisp.CommandLine.Arguments
import MiniLisp.CommandLine.Severity

namespace MiniLisp

/-!
# The command line

What a call of the program does: it prints help or a version, refuses its
arguments, evaluates source files, or runs a session on the standard input.
Everything it depends on is an argument, and everything it does is in the
outcome.
-/

/-- A call of the program. -/
structure Invocation where
  arguments : List String
  /-- The home directory. -/
  home : String
  /-- The configured history file. -/
  history : Option String
  /-- The configured log threshold. -/
  logLevel : Option String
  /-- The text on the standard input. -/
  input : String
  disk : Disk

/-- What a call leaves: an exit status or a failure, both outputs, and the disk. -/
structure Outcome where
  exit : Except Failure Nat
  out : String
  err : String
  disk : Disk

/-- Why source files give no value. -/
inductive RunError where
  | disk (path : String) (error : DiskError)
  | malformed (malformed : Text.Malformed)
  | nullInPath
  | fault (fault : Fault)
  deriving Repr, DecidableEq

/-- The text of a source file. -/
def readSource (disk : Disk) (path : String) : Except RunError String :=
  if path.toList.contains (Char.ofNat 0) then
    .error .nullInPath
  else
    match disk.read path with
    | .error error => .error (.disk path error)
    | .ok bytes =>
        match Text.decode bytes with
        | .error malformed => .error (.malformed malformed)
        | .ok text => .ok (String.ofList text)

/-- Evaluates source files one after the other, starting from a value to give if there is none. -/
def runFiles
    (limit : Nat)
    (disk : Disk) :
    List String → Datum → Env → Except RunError (Datum × Env)
  | [], value, env => .ok (value, env)
  | path :: rest, value, env =>
      match readSource disk path with
      | .error error => .error error
      | .ok source =>
          match runSource limit source value env with
          | .error fault => .error (.fault fault)
          | .ok (next, left) => runFiles limit disk rest next left

/-- The report on an error in source files, or the failure that it is. -/
def RunError.report : RunError → Except Failure String
  | .disk path cause => .ok (cause.message path)
  | .malformed bytes => .ok bytes.message
  | .nullInPath => .error .nullInPath
  | .fault .tooManyDigits => .error (.fault .tooManyDigits)
  | .fault cause => .ok cause.message

/-- Evaluates source files and prints the last value. -/
def Invocation.evaluateFiles
    (limit : Nat)
    (invocation : Invocation)
    (files : List String) :
    Outcome :=
  let level := threshold invocation.logLevel
  match runFiles limit invocation.disk (files.map normalPath) .nil .empty with
  | .ok (value, _) =>
      match value.render limit with
      | .ok text => ⟨.ok 0, text ++ "\n", "", invocation.disk⟩
      | .error fault => ⟨.error (.fault fault), "", "", invocation.disk⟩
  | .error error =>
      match error.report with
      | .ok text =>
          ⟨.ok 1, "", errorOutput level [.log .error ("Error: " ++ text)], invocation.disk⟩
      | .error failure => ⟨.error failure, "", "", invocation.disk⟩

/-- The lines of the standard input as events at a prompt. -/
def eventsOfInput (input : String) : List Event :=
  (Text.lines input.toList).map fun line => .line (String.ofList line)

/-- The session that a call starts. -/
def Invocation.session (invocation : Invocation) : Session :=
  ⟨.empty, invocation.disk, historyPath none invocation.history invocation.home⟩

/-- Runs a session on the standard input. -/
def Invocation.interact (limit : Nat) (invocation : Invocation) : Outcome :=
  let level := threshold invocation.logLevel
  let transcript := invocation.session.run limit (eventsOfInput invocation.input)
  let turnTexts := transcript.turns.map fun outputs => prompt ++ standardOutput outputs
  let outputs := transcript.greeting ++ transcript.turns.flatten
  ⟨transcript.result.map fun _ => 0,
    standardOutput transcript.greeting ++ String.join turnTexts,
    errorOutput level outputs,
    transcript.session.disk⟩

/-- What a call of the program does. -/
def Invocation.run (limit : Nat) (invocation : Invocation) : Outcome :=
  match Request.ofArguments invocation.arguments with
  | .help => ⟨.ok 0, usageHelp, "", invocation.disk⟩
  | .version => ⟨.ok 0, versionLine, "", invocation.disk⟩
  | .refuse error =>
      ⟨.ok 2, "", usage ++ "exlisp: error: " ++ error.message ++ "\n", invocation.disk⟩
  | .run [] => invocation.interact limit
  | .run files => invocation.evaluateFiles limit files

end MiniLisp
