import MiniLisp.Disk
import MiniLisp.Text.Blank
import MiniLisp.Text.Lines
import MiniLisp.Text.Utf8

namespace MiniLisp

/-!
# History

The lines of past sessions, kept in a file with one entry to a line.  A new
entry goes at the end of the file.  Reading gives the last entries: lines are
trimmed, and blank ones are no entries.
-/

/-- The name of the history file in the home directory. -/
def historyFileName : String := ".exlisp_history"

/-- The most entries that are read back. -/
def maxHistory : Nat := 100

/-- The number of bytes that are decoded at a time. -/
def historyWindow : Nat := 8192

/-- The home directory without slashes at its end, with a name below it. -/
def inHome (home name : String) : String :=
  let bare := (home.toList.reverse.dropWhile (· == '/')).reverse
  String.ofList bare ++ "/" ++ name

/-- Where the history is kept: as the caller wants, else as configured, else at home. -/
def historyPath (wanted configured : Option String) (home : String) : String :=
  let given := [wanted, configured].filterMap id
  (given.find? fun path => path ≠ "").getD (inHome home historyFileName)

/-- Adds an entry at the end of the history file. -/
def Disk.addHistory (disk : Disk) (path line : String) : Except DiskError Disk :=
  disk.append path (Text.encode (line.toList ++ ['\n']))

/-- The entries in the content of a history file. -/
def historyEntries (text : List Char) : List String :=
  let entries := ((Text.lines text).map Text.trim).filter fun line => !line.isEmpty
  (entries.drop (entries.length - maxHistory)).map String.ofList

end MiniLisp
