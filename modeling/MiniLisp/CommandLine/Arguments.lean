import MiniLisp.Text.Cut
import MiniLisp.Text.Digit
import MiniLisp.Text.Quoted

namespace MiniLisp

/-!
# Command line arguments

Arguments are source files and two switches, each with a short and a long form.
Long forms may be shortened as long as they stay unambiguous; short forms may be
run together behind one dash.  No switch takes a value.  An argument that looks
like a negative number, or that holds a space, is a file although it begins with
a dash, and after a double dash everything is a file.

The files are the first unbroken run of file arguments.  The first switch
decides what happens; without one, anything that is neither is refused.
-/

/-- A switch of the command line. -/
inductive Switch where
  | help
  | version
  deriving Repr, DecidableEq

/-- Why arguments are refused. -/
inductive UsageError where
  | ambiguous (argument : String)
  | ignoredValue (switch : Switch) (value : String)
  | unrecognized (arguments : List String)
  deriving Repr, DecidableEq

/-- What arguments ask for; without files a session is started. -/
inductive Request where
  | help
  | version
  | run (files : List String)
  | refuse (error : UsageError)
  deriving Repr, DecidableEq

/-- An argument by its form. -/
inductive Argument where
  | file (text : String)
  | unknown (text : String)
  | switch (outcome : Except UsageError Switch)

namespace Switch

/-- The letter of the short form. -/
def letter : Switch → Char
  | .help => 'h'
  | .version => 'v'

/-- The long form. -/
def long : Switch → String
  | .help => "--help"
  | .version => "--version"

/-- Both forms. -/
def forms (switch : Switch) : List String :=
  [String.ofList ['-', switch.letter], switch.long]

/-- All switches. -/
def all : List Switch :=
  [.help, .version]

/-- The switch with a given form. -/
def ofForm? (form : String) : Option Switch :=
  all.find? fun switch => switch.forms.contains form

/-- The switch with a given letter. -/
def ofLetter? (letter : Char) : Option Switch :=
  all.find? fun switch => switch.letter == letter

/-- The switches whose long form begins with a text. -/
def withStart (start : List Char) : List Switch :=
  all.filter fun switch => start.isPrefixOf switch.long.toList

end Switch

/-- Letters run together after a switch: all have to be switches, and the first one counts. -/
def runTogether (first last : Switch) : List Char → Except UsageError Switch
  | [] => .ok first
  | letter :: rest =>
      match Switch.ofLetter? letter with
      | some next => runTogether first next rest
      | none => .error (.ignoredValue last (String.ofList (letter :: rest)))

/-- A switch with a value after an equals sign; after a short form the value is read as letters. -/
def switchWithValue (switch : Switch) (isLong : Bool) (value : List Char) :
    Except UsageError Switch :=
  if isLong || value.isEmpty then
    .error (.ignoredValue switch (String.ofList value))
  else
    runTogether switch switch value

/-- Whether an argument that begins with a dash looks like a negative number. -/
def looksNegative (text : List Char) : Bool :=
  match Text.takeMinus (Text.dropFinalLineFeed text) with
  | (false, _) => false
  | (true, unsigned) =>
      let (whole, fraction) := Text.cutAt (· == '.') unsigned
      match fraction with
      | none => (Text.digitValues? whole).isSome
      | some digits =>
          (whole.isEmpty || (Text.digitValues? whole).isSome) &&
            (Text.digitValues? digits).isSome

/-- An argument that begins with a dash and spells no switch in full. -/
def classifyDashed (text : List Char) : Except UsageError Argument :=
  let argument := String.ofList text
  let otherwise :=
    if looksNegative text || text.contains ' ' then
      Argument.file argument
    else
      Argument.unknown argument
  let (start, value) := Text.cutAt (· == '=') text
  match text with
  | '-' :: '-' :: _ =>
      match Switch.withStart start, value with
      | [switch], none => .ok (.switch (.ok switch))
      | [switch], some value => .ok (.switch (switchWithValue switch true value))
      | [], _ => .ok otherwise
      | _, _ => .error (.ambiguous argument)
  | _ :: letter :: rest =>
      match Switch.ofLetter? letter with
      | some switch => .ok (.switch (runTogether switch switch rest))
      | none => .ok otherwise
  | _ => .ok otherwise

/-- What an argument is by its form. -/
def classify (argument : String) : Except UsageError Argument :=
  let text := argument.toList
  if text.head? ≠ some '-' ∨ argument = "-" then
    .ok (.file argument)
  else
    match Switch.ofForm? argument with
    | some switch => .ok (.switch (.ok switch))
    | none =>
        match Text.cutAt (· == '=') text with
        | (form, some value) =>
            match Switch.ofForm? (String.ofList form) with
            | some switch =>
                .ok (.switch (switchWithValue switch (String.ofList form == switch.long) value))
            | none => classifyDashed text
        | (_, none) => classifyDashed text

/-- Classifies arguments up to a double dash; it and everything after it are files. -/
def classifyAll : List String → Except UsageError (List Argument)
  | [] => .ok []
  | argument :: rest =>
      if argument = "--" then
        .ok ((argument :: rest).map .file)
      else do
        let first ← classify argument
        let others ← classifyAll rest
        .ok (first :: others)

namespace Argument

/-- Whether an argument is a file. -/
def isFile : Argument → Bool
  | .file _ => true
  | _ => false

/-- The text of an argument that is no switch. -/
def text? : Argument → Option String
  | .file text => some text
  | .unknown text => some text
  | .switch _ => none

/-- What the switch that an argument is asks for. -/
def request? : Argument → Option Request
  | .switch (.ok .help) => some .help
  | .switch (.ok .version) => some .version
  | .switch (.error error) => some (.refuse error)
  | _ => none

end Argument

/-- The files among arguments without switches, or the arguments that are too many. -/
def requestFiles (arguments : List Argument) : Request :=
  let before := arguments.takeWhile (!·.isFile)
  let fromFiles := arguments.dropWhile (!·.isFile)
  let files := fromFiles.takeWhile (·.isFile)
  let after := fromFiles.dropWhile (·.isFile)
  let unrecognized := (before ++ after).filterMap Argument.text?
  if unrecognized.isEmpty then
    .run ((files.filterMap Argument.text?).erase "--")
  else
    .refuse (.unrecognized unrecognized)

/-- What the arguments of a command line ask for. -/
def Request.ofArguments (arguments : List String) : Request :=
  match classifyAll arguments with
  | .error error => .refuse error
  | .ok classified => (classified.findSome? Argument.request?).getD (requestFiles classified)

/-- How the program is called. -/
def usage : String := "usage: exlisp [-h] [-v] [files ...]\n"

/-- The help on the command line. -/
def usageHelp : String :=
  usage ++ "\nExLisp - A simple Lisp interpreter\n\n" ++
    "positional arguments:\n" ++
    "  files          Source files to evaluate; the REPL starts when none are given\n\n" ++
    "options:\n" ++
    "  -h, --help     show this help message and exit\n" ++
    "  -v, --version  show program's version number and exit\n"

/-- The name and version of the program. -/
def versionLine : String := "ExLisp version 0.1.0\n"

/-- The wording of a refusal. -/
def UsageError.message : UsageError → String
  | .ambiguous argument =>
      "ambiguous option: " ++ argument ++ " could match " ++
        ", ".intercalate (Switch.all.map Switch.long)
  | .ignoredValue switch value =>
      "argument " ++ "/".intercalate switch.forms ++ ": ignored explicit argument " ++
        Text.quoted value
  | .unrecognized arguments => "unrecognized arguments: " ++ " ".intercalate arguments

end MiniLisp
