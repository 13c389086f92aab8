import QueryNotation.Compiler

/-! Sessions: the state of one compilation, for callers that run its stages themselves. -/

namespace QueryNotation

/-- The dialect, the number of the last parameter, and the last tree. -/
structure Session where
  dialect : Dialect
  params : ParamCounter
  tree : Option Sql.Statement

namespace Session

/-- A session at its start. -/
def start (d : Dialect) : Session := ⟨d, 0, none⟩

/-- The number of the next parameter, and the session after it. -/
def nextParam (s : Session) : Nat × Session :=
  let (index, params) := s.params.next
  (index, { s with params })

/-- The session with another counter. -/
def setParams (s : Session) (params : ParamCounter) : Session := { s with params }

/-- The counter, handed over, and the session that counts from the start again. -/
def takeParams (s : Session) : ParamCounter × Session := (s.params, s.setParams s.params.reset)

/-- The session with a tree. -/
def setTree (s : Session) (tree : Sql.Statement) : Session := { s with tree := some tree }

/-- The text of the last tree, if there is one. -/
def generate? (s : Session) : Option (Except Sql.PrintError String) := s.tree.map s.dialect.generate

/-- The session with its counter at the start and without a tree. -/
def reset (s : Session) : Session := { s with params := s.params.reset, tree := none }

/-- A short description of a session without a tree. -/
def describe (s : Session) : String :=
  "Context \x7b dialect: " ++ Text.escaped s.dialect.name ++
    ", params: ParamCounter \x7b index: " ++ toString s.params ++ " \x7d, sql_ast: None \x7d"

end Session

end QueryNotation
