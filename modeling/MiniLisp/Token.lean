import MiniLisp.Text.Blank

namespace MiniLisp

/-!
# Tokens

A source text is a sequence of parentheses and atoms.  Every parenthesis is a
token of its own; what stands between parentheses and blanks is an atom.
-/

/-- A token of a source text. -/
inductive Token where
  | leftParen
  | rightParen
  | atom (text : String)
  deriving Repr, DecidableEq

namespace Token

/-- The spelling of a token. -/
def text : Token → String
  | .leftParen => "("
  | .rightParen => ")"
  | .atom text => text

/-- The token with a given spelling. -/
def ofText (text : String) : Token :=
  if text = "(" then
    .leftParen
  else if text = ")" then
    .rightParen
  else
    .atom text

/-- Every token is found by its spelling, unless an atom is spelled like a parenthesis. -/
theorem ofText_text
    (token : Token)
    (proper : token ≠ .atom "(" ∧ token ≠ .atom ")") :
    ofText token.text = token := by
  cases token with
  | leftParen =>
      rfl
  | rightParen =>
      rfl
  | atom text =>
      have notLeft : text ≠ "(" := fun same => proper.1 (by rw [same])
      have notRight : text ≠ ")" := fun same => proper.2 (by rw [same])
      simp [Token.text, ofText, notLeft, notRight]

end Token

/-- Puts blanks around every parenthesis. -/
def padParens (source : List Char) : List Char :=
  source.flatMap fun c => if c = '(' ∨ c = ')' then [' ', c, ' '] else [c]

/-- The tokens of a source text: its words once every parenthesis stands alone. -/
def tokenize (source : String) : List Token :=
  (Text.words (padParens source.toList)).map fun word => Token.ofText (String.ofList word)

end MiniLisp
