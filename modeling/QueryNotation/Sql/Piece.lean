/-! The pieces of SQL text. Names, text literals and parameters stay apart from keywords and
punctuation, so what a text holds can be read off its pieces. -/

namespace QueryNotation.Sql

/-- A piece of SQL text. -/
inductive Piece where
  /-- Text as it is: keywords, punctuation, operators, functions, types, numbers. -/
  | plain (s : String)
  /-- A name, which the dialect quotes. -/
  | name (s : String)
  /-- A text literal. -/
  | text (s : String)
  /-- The parameter with this number. -/
  | param (index : Nat)
deriving DecidableEq, Repr

namespace Piece

/-- Pieces with commas between them. -/
def commas (parts : List (List Piece)) : List Piece := List.intercalate [.plain ", "] parts

/-- Pieces in parentheses. -/
def parens (pieces : List Piece) : List Piece := .plain "(" :: pieces ++ [.plain ")"]

/-- Pieces with an alias after them, if there is one. -/
def aliased (pieces : List Piece) : Option String → List Piece
  | some label => pieces ++ [.plain " AS ", .name label]
  | none => pieces

/-- A clause: its keyword and what it says. -/
def clause (keyword : String) (pieces : List Piece) : List Piece :=
  .plain (keyword ++ " ") :: pieces

/-- A dotted name; a segment `*` is not quoted. -/
def path (segments : List String) : List Piece :=
  List.intercalate [.plain "."] (segments.map fun s => [if s = "*" then .plain s else .name s])

end Piece

end QueryNotation.Sql
