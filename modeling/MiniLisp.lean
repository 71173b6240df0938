import MiniLisp.Datum.Parser
import MiniLisp.Datum.Printer
import MiniLisp.Evaluation
import MiniLisp.Program
import MiniLisp.Session
import MiniLisp.CommandLine
import MiniLisp.Main
import MiniLisp.Proofs.Alike
import MiniLisp.Proofs.LexicalScope
import MiniLisp.Proofs.Atom
import MiniLisp.Proofs.Grammar
import MiniLisp.Proofs.Diagnosis
import MiniLisp.Proofs.Numeral
import MiniLisp.Proofs.RoundTrip
import MiniLisp.Proofs.Definable
import MiniLisp.Proofs.Independence
import MiniLisp.Proofs.Readable
import MiniLisp.Proofs.Soundness
import MiniLisp.Proofs.Reachability
import MiniLisp.Proofs.Faults
import MiniLisp.Proofs.Limit
import MiniLisp.Proofs.SourceFiles
import MiniLisp.Proofs.LineByLine
import MiniLisp.Proofs.HistoryFile
import MiniLisp.Proofs.Dialogue
import MiniLisp.Proofs.Formula
import MiniLisp.Proofs.Recursion
import MiniLisp.Proofs.Meaning
import MiniLisp.Proofs.ExitStatus
import MiniLisp.Proofs.Congruence
import MiniLisp.Proofs.ParameterNames
import MiniLisp.Proofs.Settled
import MiniLisp.Proofs.Junction
import MiniLisp.Proofs.ProcedureDefinition
import MiniLisp.Proofs.Currying
import MiniLisp.Proofs.Scanning
import MiniLisp.Proofs.Sequencing
import MiniLisp.Proofs.ListForms
import MiniLisp.Proofs.Lines
import MiniLisp.Proofs.Recording
import MiniLisp.Proofs.Literal
import MiniLisp.Proofs.Depth
import MiniLisp.Proofs.Division
