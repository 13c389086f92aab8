import QueryNotation.Failure

/-! Events: what the library reports while it works. -/

namespace QueryNotation

/-- How much an event matters. -/
inductive Level where
  | debug
  | warn
deriving DecidableEq, Repr

/-- The level as it is written. -/
def Level.text : Level → String
  | .debug => "DEBUG"
  | .warn => "WARN"

/-- An event. -/
inductive Event where
  | compiling (dialect statement : String)
  /-- A nested field of an entry was dropped. -/
  | dropped (field : String)
  | compiled (params : Nat)
  | validationFailed (e : ValidationError)
  | compilationFailed (f : Failure)
  /-- A dialect took the place of another one of its name. -/
  | replaced (dialect : String)
deriving DecidableEq, Repr

namespace Event

/-- The level of an event. -/
def level : Event → Level
  | .dropped _ => .warn
  | _ => .debug

/-- The text of an event. -/
def message : Event → String
  | .compiling _ _ => "Compiling query"
  | .dropped _ => "Dropping nested insert payload field"
  | .compiled _ => "Compiled query"
  | .validationFailed _ => "Validation failed"
  | .compilationFailed _ => "Compilation failed"
  | .replaced _ => "Replacing registered dialect"

/-- The fields of an event. -/
def fields : Event → List (String × String)
  | .compiling dialect statement => [("dialect", dialect), ("statement", statement)]
  | .dropped field => [("field", field)]
  | .compiled params => [("param_count", toString params)]
  | .validationFailed e => [("error", e.message)]
  | .compilationFailed f => [("error", f.message)]
  | .replaced dialect => [("dialect", dialect)]

end Event

/-- The events of a call, and its result. -/
structure Logged (α : Type) where
  events : List Event
  result : Except Failure α

/-- A logged result with `f` applied to it. -/
def Logged.map (f : α → β) (l : Logged α) : Logged β := ⟨l.events, l.result.map f⟩

end QueryNotation
