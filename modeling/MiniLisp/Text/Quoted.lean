import MiniLisp.Text.Hex
import MiniLisp.Text.Printable

namespace MiniLisp.Text

/-!
# Quoted texts

How messages quote a text: between single quotes, unless the text holds a
single quote and no double one.  A backslash, the enclosing quote and every
character that is not printable are written as escapes, so that a quoted text
stays on one line.
-/

/-- The quote that encloses a text. -/
def enclosingQuote (text : List Char) : Char :=
  if text.contains '\x27' && !text.contains '"' then '"' else '\x27'

/-- One character of a quoted text, escaped where it cannot stand for itself. -/
def escapeChar (quote c : Char) : List Char :=
  if c = quote ∨ c = '\\' then
    ['\\', c]
  else if c = '\t' then
    ['\\', 't']
  else if c = '\n' then
    ['\\', 'n']
  else if c = '\r' then
    ['\\', 'r']
  else if isPrintable c then
    [c]
  else if c.toNat < 0x100 then
    '\\' :: 'x' :: hex 2 c.toNat
  else if c.toNat < 0x10000 then
    '\\' :: 'u' :: hex 4 c.toNat
  else
    '\\' :: 'U' :: hex 8 c.toNat

/-- A text in quotes. -/
def quoted (text : String) : String :=
  let quote := enclosingQuote text.toList
  String.ofList (quote :: text.toList.flatMap (escapeChar quote) ++ [quote])

end MiniLisp.Text
