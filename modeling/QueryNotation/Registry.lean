import QueryNotation.Compiler

/-! Registries: a map from names to dialects. -/

namespace QueryNotation

/-- What becomes of a dialect whose name is taken. -/
inductive DuplicatePolicy where
  | replace
  | reject
deriving DecidableEq, Repr

/-- The policy as descriptions show it. -/
def DuplicatePolicy.text : DuplicatePolicy → String
  | .replace => "Replace"
  | .reject => "Reject"

/-- Dialects under keys, in the order of the keys, and the policy for taken names. -/
structure Registry where
  entries : List (String × Dialect)
  duplicates : DuplicatePolicy

/-- Puts a value under a key, in the place of what stood there. -/
def insertSorted (key : String) (value : α) : List (String × α) → List (String × α)
  | [] => [(key, value)]
  | (k, v) :: rest =>
    if key < k then (key, value) :: (k, v) :: rest
    else if key = k then (key, value) :: rest
    else (k, v) :: insertSorted key value rest

namespace Registry

/-- A registry without dialects. -/
def empty : Registry := ⟨[], .replace⟩

/-- The registry with a dialect under a key. -/
def insert (r : Registry) (key : String) (d : Dialect) : Registry :=
  { r with entries := insertSorted key d r.entries }

/-- The registry with the dialects that are always there. -/
def builtins : Registry := Dialect.builtins.foldl (fun r d => r.insert d.name d) empty

/-- The dialect under this name. -/
def get? (r : Registry) (name : String) : Option Dialect := r.entries.lookup name

/-- The names, in order. -/
def names (r : Registry) : List String := r.entries.map Prod.fst

/-- The dialects, in the order of the names. -/
def dialects (r : Registry) : List Dialect := r.entries.map Prod.snd

/-- The number of dialects. -/
def size (r : Registry) : Nat := r.entries.length

/-- Whether there are no dialects. -/
def isEmpty (r : Registry) : Bool := r.entries.isEmpty

/-- The registry with another policy. -/
def setDuplicates (r : Registry) (policy : DuplicatePolicy) : Registry :=
  { r with duplicates := policy }

/-- Registers a dialect under its name: the registry that the call leaves behind, and the call's
events and result. -/
def register (r : Registry) (d : Dialect) : Registry × Logged Unit :=
  let name := d.name
  if (r.get? name).isSome then
    if r.duplicates = .reject then (r, ⟨[], .error (.duplicateDialect name)⟩)
    else (r.insert name d, ⟨[.replaced name], .ok ()⟩)
  else (r.insert name d, ⟨[], .ok ()⟩)

/-- The compiler for the dialect of this name. -/
def compilerFor (r : Registry) (name : String) : Except Failure Compiler :=
  match r.get? name with
  | some d => .ok ⟨d, .skip⟩
  | none => .error (.unknownDialect name)

/-- A short description of a registry. -/
def describe (r : Registry) : String :=
  "DialectRegistry \x7b dialects: [" ++ ", ".intercalate (r.names.map Text.escaped) ++
    "], duplicates: " ++ r.duplicates.text ++ " \x7d"

end Registry

end QueryNotation
