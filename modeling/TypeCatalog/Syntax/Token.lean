/-! # Tokens

A source text is read as tokens. Each token keeps the blanks, comments and line ends that stand
before it, so the text of a stretch of tokens is the source text again. Line ends inside brackets
are kept in unified form: the line end of the first line of the text is written as a line feed. -/

namespace TypeCatalog.Syntax

/-- A place in a source text: how many lines are above it, and its column. -/
structure Place where
  linesAbove : Nat
  column : Nat
  deriving DecidableEq, Repr, Inhabited

namespace Place

/-- The line of a place; lines count from one, columns from zero. -/
def line (place : Place) : Nat := place.linesAbove + 1

/-- The first place of a text. -/
def start : Place := ⟨0, 0⟩

/-- The place behind a stretch of characters. A carriage return and a line feed behind it are one
line end. -/
def advance (place : Place) : List Char → Place
  | [] => place
  | '\r' :: '\n' :: rest => advance ⟨place.linesAbove + 1, 0⟩ rest
  | '\r' :: rest => advance ⟨place.linesAbove + 1, 0⟩ rest
  | '\n' :: rest => advance ⟨place.linesAbove + 1, 0⟩ rest
  | _ :: rest => advance ⟨place.linesAbove, place.column + 1⟩ rest

end Place

/-- The kinds of tokens. A formatted string is a sequence of tokens: its opening, stretches of
text, the tokens of its replacement fields, and its closing. -/
inductive TokenKind where
  | name
  | number
  | string
  | operator
  | lineEnd
  | indent
  | dedent
  | formattedOpen
  | formattedText
  | formattedClose
  | finish
  deriving DecidableEq, Repr, Inhabited

/-- A token with the text before it and its place. -/
structure Token where
  kind : TokenKind
  text : String
  lead : String
  place : Place
  deriving Repr, Inhabited

namespace Token

/-- The source text of a stretch of tokens, without what stands before the first. -/
def join : List Token → String
  | [] => ""
  | first :: rest => rest.foldl (fun text token => text ++ token.lead ++ token.text) first.text

end Token

end TypeCatalog.Syntax
