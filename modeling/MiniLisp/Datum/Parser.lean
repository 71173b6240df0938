import MiniLisp.Datum.Atom
import MiniLisp.Token

namespace MiniLisp

/-!
# Parsing

A reader takes tokens one by one.  It keeps the expressions that are complete
and the lists that are still open.  `parseOne` feeds it until one expression is
complete, `parse` demands that nothing follows, `parseMany` feeds it everything.

The limit bounds how many lists may be open at once; how many tokens there are
does not matter.
-/

/-- A reader in the middle of a token sequence. -/
structure Reader where
  /-- The complete expressions, the last one first. -/
  finished : List Datum
  /-- The items of the lists still open, the innermost list and in it the last item first. -/
  opened : List (List Datum)

namespace Reader

/-- A reader that has seen nothing. -/
def start : Reader :=
  ⟨[], []⟩

/-- Adds an expression to the innermost open list, or to the complete ones. -/
def add (reader : Reader) (datum : Datum) : Reader :=
  match reader.opened with
  | [] => { reader with finished := datum :: reader.finished }
  | items :: outer => { reader with opened := (datum :: items) :: outer }

/-- Takes one token. -/
def feed (limit : Nat) (reader : Reader) : Token → Except Fault Reader
  | .leftParen =>
      if reader.opened.length < limit then
        .ok { reader with opened := [] :: reader.opened }
      else
        .error .tooDeep
  | .rightParen =>
      match reader.opened with
      | [] => .error (.parse .unexpectedEnd)
      | items :: outer => .ok ({ reader with opened := outer }.add (.list items.reverse))
  | .atom text =>
      match Datum.ofAtom text with
      | .ok datum => .ok (reader.add datum)
      | .error error => .error (.parse error)

/-- Takes tokens until an expression is complete; gives it with the tokens that follow. -/
def untilFinished
    (limit : Nat)
    (reader : Reader) :
    List Token → Except Fault (Datum × List Token)
  | [] =>
      if reader.opened.isEmpty then
        .error (.parse .unexpectedEnd)
      else
        .error (.parse .missingClose)
  | token :: rest =>
      match reader.feed limit token with
      | .error fault => .error fault
      | .ok next =>
          match next.finished with
          | datum :: _ => .ok (datum, rest)
          | [] => next.untilFinished limit rest

/-- Takes all tokens; gives the complete expressions unless a list is still open. -/
def untilEnd
    (limit : Nat)
    (reader : Reader) :
    List Token → Except Fault (List Datum)
  | [] =>
      if reader.opened.isEmpty then
        .ok reader.finished.reverse
      else
        .error (.parse .missingClose)
  | token :: rest =>
      match reader.feed limit token with
      | .error fault => .error fault
      | .ok next => next.untilEnd limit rest

end Reader

/-- The first expression of a token sequence, and the tokens after it. -/
def parseOne (limit : Nat) (tokens : List Token) : Except Fault (Datum × List Token) :=
  Reader.start.untilFinished limit tokens

/-- The expression that a source text is. -/
def parse (limit : Nat) (source : String) : Except Fault Datum :=
  match parseOne limit (tokenize source) with
  | .error fault => .error fault
  | .ok (datum, []) => .ok datum
  | .ok (_, leftover) => .error (.parse (.trailingTokens (leftover.map Token.text)))

/-- All expressions of a source text. -/
def parseMany (limit : Nat) (source : String) : Except Fault (List Datum) :=
  Reader.start.untilEnd limit (tokenize source)

end MiniLisp
