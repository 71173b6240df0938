import MiniLisp.History
import MiniLisp.Program

namespace MiniLisp

/-!
# Sessions

An interactive session reads lines and answers each.  It holds the bindings that
the lines so far have left, and the disk with the history file.  Lines that
begin with a colon may be commands; every other line is one expression.

All operations are functions from a session to a reply, which has what was
written and logged, the session afterwards, and a result.  Almost everything
that goes wrong is answered and the session goes on; the failures that end it
are of type `Failure`.
-/

/-- How important a log message is. -/
inductive Severity where
  | debug
  | warning
  | error
  deriving Repr, DecidableEq

/-- One thing that a session puts out. -/
inductive Output where
  | write (text : String)
  | log (severity : Severity) (text : String)
  deriving Repr, DecidableEq

/-- What ends a session or a run. -/
inductive Failure where
  | fault (fault : Fault)
  | malformed (malformed : Text.Malformed)
  | nullInPath
  deriving Repr, DecidableEq

/-- The wording of a failure. -/
def Failure.message : Failure → String
  | .fault cause => cause.message
  | .malformed bytes => bytes.message
  | .nullInPath => "embedded null byte"

/-- The state of an interactive session. -/
structure Session where
  env : Env
  disk : Disk
  history : String

/-- What a session answers. -/
structure Reply (α : Type) where
  output : List Output
  session : Session
  result : Except Failure α

/-- What happens at the prompt: a line is entered, or the user interrupts. -/
inductive Event where
  | line (text : String)
  | interrupt
  deriving Repr, DecidableEq

/-- A whole session, from the greeting to its end. -/
structure Transcript where
  greeting : List Output
  /-- What was put out after each time the session asked for a line. -/
  turns : List (List Output)
  session : Session
  result : Except Failure Unit

/-- What a session writes when it begins. -/
def greeting : String := "ExLisp REPL - Type :help for commands, :exit to quit"

/-- What a session asks for a line with. -/
def prompt : String := "exlisp> "

/-- What a session answers to an interruption. -/
def interruptNotice : String := "\nInterrupted. (Use :exit or ^D to exit)"

/-- The control sequence that clears a terminal and moves to its first column and row. -/
def clearScreen : String := "\x1b[2J\x1b[H"

/-- The list of commands. -/
def helpText : String :=
  "\n".intercalate
    ["Available commands:",
     ":clear or :cls - Clear the screen",
     ":history - Show command history",
     ":reset - Reset the environment",
     ":exit or :q - Exit the REPL",
     ":help - Show this help message"]

/-- A command of the session. -/
inductive Command where
  | exit
  | clear
  | history
  | help
  | reset
  deriving Repr, DecidableEq

/-- The command that a line is. -/
def Command.ofLine? (line : String) : Option Command :=
  if line = ":exit" ∨ line = ":q" then
    some .exit
  else if line = ":clear" ∨ line = ":cls" then
    some .clear
  else if line = ":history" then
    some .history
  else if line = ":help" then
    some .help
  else if line = ":reset" then
    some .reset
  else
    none

/-- A reply that is a plain value. -/
def Reply.pure {α : Type} (session : Session) (value : α) : Reply α :=
  ⟨[], session, .ok value⟩

/-- Goes on from a reply with its value; a failure stays, and earlier output comes first. -/
def Reply.andThen {α β : Type} (reply : Reply α) (next : Session → α → Reply β) : Reply β :=
  match reply.result with
  | .error failure => ⟨reply.output, reply.session, .error failure⟩
  | .ok value =>
      let after := next reply.session value
      ⟨reply.output ++ after.output, after.session, after.result⟩

/-- The answer to a fault in a line; nothing if the fault is not the line's own. -/
def answerFault? : Fault → Option String
  | .parse error => some ("Parse error: " ++ error.message)
  | .eval error => some ("Error: " ++ error.message)
  | .tooDeep => some ("Error: " ++ Fault.tooDeep.message)
  | .tooManyDigits => none

namespace Session

/-- Reads and evaluates the expression in a line. -/
def evaluateLine (limit : Nat) (session : Session) (line : String) : Except Fault (Datum × Env) :=
  match parse limit line with
  | .error fault => .error fault
  | .ok expression => evaluate limit expression session.env

/--
The text to show for a line.  The bindings advance when evaluation succeeds,
also if the value then cannot be printed.
-/
def process (limit : Nat) (session : Session) (line : String) : Reply String :=
  let trace := [Output.log .debug ("Evaluating " ++ Text.quoted line)]
  match session.evaluateLine limit line with
  | .ok (value, env) =>
      let next := { session with env := env }
      match value.render limit with
      | .ok text => ⟨trace, next, .ok text⟩
      | .error fault => ⟨trace, next, .error (.fault fault)⟩
  | .error fault =>
      match answerFault? fault with
      | some text => ⟨trace, session, .ok text⟩
      | none => ⟨trace, session, .error (.fault fault)⟩

/-- Adds a line to the history; a history that cannot be written is a warning. -/
def appendHistory (session : Session) (line : String) : Reply Unit :=
  match session.disk.addHistory session.history line with
  | .ok disk => .pure { session with disk := disk } ()
  | .error error =>
      let text := "Cannot write history file " ++ session.history ++ ": " ++
        error.message session.history
      ⟨[.log .warning text], session, .ok ()⟩

/-- The entries of the history; a missing one is empty, one that cannot be read is a warning. -/
def loadHistory (session : Session) : Reply (List String) :=
  match session.disk.read session.history with
  | .ok bytes =>
      match Text.decodeStream historyWindow bytes with
      | .ok text => .pure session (historyEntries text)
      | .error malformed => ⟨[], session, .error (.malformed malformed)⟩
  | .error .isDirectory =>
      let text := "Cannot read history file " ++ session.history ++ ": " ++
        DiskError.isDirectory.message session.history
      ⟨[.log .warning text], session, .ok []⟩
  | .error _ => .pure session []

/-- The history as numbered lines. -/
def numbered (entries : List String) : List Output :=
  if entries.isEmpty then
    [.write "History is empty"]
  else
    (entries.zipIdx 1).map fun (entry, index) => .write (index.repr ++ ": " ++ entry)

/-- Writes the history. -/
def showHistory (session : Session) : Reply Unit :=
  session.loadHistory.andThen fun next entries => ⟨numbered entries, next, .ok ()⟩

/-- Carries out a command; the result says whether the session goes on. -/
def command (session : Session) : Command → Reply Bool
  | .exit => .pure session false
  | .clear => ⟨[.write clearScreen], session, .ok true⟩
  | .history => session.showHistory.andThen fun next _ => .pure next true
  | .help => ⟨[.write helpText], session, .ok true⟩
  | .reset =>
      ⟨[.log .debug "Environment reset", .write "Environment reset."],
        { session with env := .empty }, .ok true⟩

/-- Handles a line; the result says whether the session goes on. -/
def handle (limit : Nat) (session : Session) (line : String) : Reply Bool :=
  match Command.ofLine? line with
  | some command => session.command command
  | none =>
      (session.process limit line).andThen fun next text =>
        ⟨[.write text], next, .ok true⟩

/-- Takes a line as it was entered: blanks around it do not count, and a blank line is ignored. -/
def enter (limit : Nat) (session : Session) (entered : String) : Reply Bool :=
  let line := String.ofList (Text.trim entered.toList)
  if line = "" then
    .pure session true
  else
    (session.appendHistory line).andThen fun next _ => next.handle limit line

/-- Takes one event. -/
def turn (limit : Nat) (session : Session) : Event → Reply Bool
  | .interrupt => ⟨[.write interruptNotice], session, .ok true⟩
  | .line entered => session.enter limit entered

/-- The turns of a session until it ends; after the last event the input is at its end. -/
def turns
    (limit : Nat)
    (session : Session) :
    List Event → List (List Output) × Session × Except Failure Unit
  | [] => ([[.write ""]], session, .ok ())
  | event :: rest =>
      let reply := session.turn limit event
      match reply.result with
      | .error failure => ([reply.output], reply.session, .error failure)
      | .ok false => ([reply.output], reply.session, .ok ())
      | .ok true =>
          let (later, final, result) := reply.session.turns limit rest
          (reply.output :: later, final, result)

/-- Runs a session on the events at its prompt. -/
def run (limit : Nat) (session : Session) (events : List Event) : Transcript :=
  let (turns, final, result) := session.turns limit events
  ⟨[.write greeting], turns, final, result⟩

end Session

end MiniLisp
