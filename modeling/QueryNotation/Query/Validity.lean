import QueryNotation.Query.Form

/-! Validity: the clauses that a statement must have before it is worth lowering. Only the top of a
query and its tree of joins are looked at; expressions and nested selects are not. -/

namespace QueryNotation

/-- Why a query is not valid. -/
inductive ValidationError where
  | notAnObject
  | keyCount
  | unknownStatement (key : String)
  | missingClause (statement : Keyword) (clause : String)
  | missingUpsertTarget
  | emptyPayload (statement : Keyword)
  | joinArity (found : Nat)
  | invalidSource
  /-- The value under a statement keyword is no object. -/
  | bodyNotAnObject (statement : Keyword)
  /-- The value or the text is no query at all. Why it is none, in the words of the JSON reader, is
  left out. -/
  | malformed
deriving DecidableEq, Repr

namespace ValidationError

/-- The article of a clause's name. -/
def article (clause : String) : String :=
  match clause.toList.head? with
  | some c => if c ∈ ['a', 'e', 'i', 'o', 'u'] then "an" else "a"
  | none => "a"

/-- The text of an error. That of a malformed query goes on with a colon and the words of the JSON
reader, which are left out. -/
def message : ValidationError → String
  | .notAnObject => "Query must be an object"
  | .keyCount =>
    "Query must have exactly one key (SELECT, INSERT, UPDATE, DELETE, or UPSERT)"
  | .unknownStatement key =>
    "Invalid query type: " ++ key ++ ". Must be one of: SELECT, INSERT, UPDATE, DELETE, UPSERT"
  | .missingClause statement clause =>
    statement.text ++ " query must have " ++ article clause ++ " " ++ clause ++ " clause"
  | .missingUpsertTarget => "UPSERT query must have an upsert or into clause"
  | .emptyPayload statement => statement.text ++ " must have entries, values, or rows"
  | .joinArity found => "JOIN must have exactly two arguments, found " ++ toString found
  | .invalidSource => "Invalid source type"
  | .bodyNotAnObject statement =>
    "Malformed query notation: " ++ statement.text ++ " must be an object"
  | .malformed => "Malformed query notation"

end ValidationError

mutual

/-- Every join of a source has two arguments, and none of them is of unknown form. -/
def Source.validate : Source → Except ValidationError Unit
  | .ref _ => pure ()
  | .select _ _ => pure ()
  | .join j => j.validate
  | .other => throw .invalidSource

/-- A join has two valid arguments. -/
def Join.validate : Join → Except ValidationError Unit
  | ⟨_, args, _, _⟩ =>
    if args.length = 2 then validateSources args else throw (.joinArity args.length)

/-- All sources are valid. -/
def validateSources : List Source → Except ValidationError Unit
  | [] => pure ()
  | s :: sources => do
    s.validate
    validateSources sources

end

/-- A select has a valid source. -/
def Select.validate (s : Select) : Except ValidationError Unit :=
  match s.source with
  | some source => source.validate
  | none => throw (.missingClause .select "from")

/-- An insert has a target and rows. -/
def Insert.validate (i : Insert) : Except ValidationError Unit :=
  if i.into.isNone then throw (.missingClause .insert "into")
  else if i.payload.isEmpty then throw (.emptyPayload .insert)
  else pure ()

/-- An update has a target and assignments. -/
def Update.validate (u : Update) : Except ValidationError Unit :=
  if u.target.isNone then throw (.missingClause .update "update")
  else if (u.assignments.getD []).isEmpty then throw (.missingClause .update "set")
  else pure ()

/-- A delete has a target. -/
def Delete.validate (d : Delete) : Except ValidationError Unit :=
  if d.target.isNone then throw (.missingClause .delete "delete") else pure ()

/-- An upsert has a target and rows. -/
def Upsert.validate (u : Upsert) : Except ValidationError Unit :=
  if u.target.isNone then throw .missingUpsertTarget
  else if u.payload.isEmpty then throw (.emptyPayload .upsert)
  else pure ()

/-- A statement has the clauses that it needs. -/
def Statement.validate : Statement → Except ValidationError Unit
  | .select s => s.validate
  | .insert i => i.validate
  | .update u => u.validate
  | .delete d => d.validate
  | .upsert u => u.validate

namespace Query

/-- A query has exactly one key, which is that of a valid statement. -/
def validate (q : Query) : Except ValidationError Unit :=
  if q.keys.length ≠ 1 then throw .keyCount
  else
    match q.others.head?, q.statement? with
    | some key, _ => throw (.unknownStatement key)
    | none, some statement => statement.validate
    | none, none => throw .keyCount

/-- The top of a JSON value is that of a query: an object with one key, which is a statement keyword
over an object. -/
def validateTop (v : Json) : Except ValidationError Unit :=
  match v.node.settle with
  | .object [(key, body)] =>
    match Keyword.ofText? key, body with
    | none, _ => throw (.unknownStatement key)
    | some _, .object _ => pure ()
    | some keyword, _ => throw (.bodyNotAnObject keyword)
  | .object _ => throw .keyCount
  | _ => throw .notAnObject

/-- The valid query that a JSON value writes. -/
def ofValidJson (v : Json) : Except ValidationError Query := do
  validateTop v
  match form.ofJson? v with
  | some q =>
    q.validate
    pure q
  | none => throw .malformed

end Query

end QueryNotation
