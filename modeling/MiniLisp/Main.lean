import MiniLisp.CommandLine

namespace MiniLisp

/-!
# The program

Fetches what a call depends on, hands it to the command line, and carries out
what comes back.  A session at a terminal is run line by line, so that every
answer appears before the next line is read.
-/

/-- Records what stands at a place; what cannot be read is missing. -/
def recordPlace (disk : Disk) (place : Place) : IO Disk := do
  let path := (← IO.currentDir) / place.path
  try
    match (← path.metadata).type with
    | .dir => return disk.put place .directory
    | .file => return disk.put place (.file (← IO.FS.readBinFile path).toList)
    | _ => return disk.put place (.device (← IO.FS.readBinFile path).toList)
  catch _ => return disk

/-- Records what stands on the way along a path. -/
def recordPath (disk : Disk) (path : String) : IO Disk :=
  ((disk.start path).along (pathSteps path)).foldlM recordPlace disk

/-- Writes out what a session has added to a file. -/
def saveAdded (path : String) (before after : Disk) : IO Unit := do
  let old := (before.read path).toOption.getD []
  let new := (after.read path).toOption.getD []
  if old.length < new.length then
    try
      let handle ← IO.FS.Handle.mk path .append
      handle.write ⟨(new.drop old.length).toArray⟩
    catch error =>
      IO.eprintln ("Cannot write history file " ++ path ++ ": " ++ toString error)

/-- Prints what a session puts out. -/
def printOutputs (level : Nat) (outputs : List Output) : IO Unit := do
  IO.eprint (errorOutput level outputs)
  IO.print (standardOutput outputs)

/-- Takes events in turn; the result is the exit status if the session has ended. -/
def takeEvents (level : Nat) : Session → List Event → IO (Session × Option UInt32)
  | session, [] => return (session, none)
  | session, event :: rest => do
      let disk ← recordPath (.blank session.disk.working) session.history
      let reply := ({ session with disk := disk }).turn standardLimit event
      saveAdded session.history disk reply.session.disk
      printOutputs level reply.output
      match reply.result with
      | .error failure =>
          IO.eprintln failure.message
          return (reply.session, some 1)
      | .ok false => return (reply.session, some 0)
      | .ok true => takeEvents level reply.session rest

/-- Asks for lines until the session or the input ends. -/
partial def converse (level : Nat) (session : Session) : IO UInt32 := do
  IO.print prompt
  (← IO.getStdout).flush
  let line ← (← IO.getStdin).getLine
  if line.isEmpty then
    IO.println ""
    return 0
  let (next, ended) ← takeEvents level session (eventsOfInput line)
  match ended with
  | some status => return status
  | none => converse level next

/-- Runs the program on a disk and prints what it puts out. -/
def carryOut (invocation : Invocation) : IO UInt32 := do
  let outcome := invocation.run standardLimit
  IO.print outcome.out
  IO.eprint outcome.err
  match outcome.exit with
  | .ok status => return status.toUInt32
  | .error failure =>
      IO.eprintln failure.message
      return 1

end MiniLisp

open MiniLisp in
/-- Runs the program. -/
def main (arguments : List String) : IO UInt32 := do
  let working := pathNames (← IO.currentDir).toString
  let invocation : Invocation :=
    { arguments := arguments
      home := (← IO.getEnv "HOME").getD "/"
      history := ← IO.getEnv "EXLISP_HISTORY"
      logLevel := ← IO.getEnv "LOGLEVEL"
      input := ""
      disk := .blank working }
  match Request.ofArguments arguments with
  | .run [] =>
      IO.println greeting
      converse (threshold invocation.logLevel) invocation.session
  | .run files =>
      let disk ← (files.map normalPath).foldlM recordPath invocation.disk
      carryOut { invocation with disk := disk }
  | _ => carryOut invocation
