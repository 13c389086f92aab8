/-! TOML documents: tables of values. A table is implicit as long as only its parts are named, and
dotted if dotted keys made it. -/

namespace QueryNotation.Toml

mutual

/-- A value. -/
inductive Value where
  | text (s : String)
  /-- A number, a truth value, a date or a time. -/
  | plain
  | array (items : List Value)
  | inline (t : Table)

/-- What a key of a table stands for. -/
inductive Item where
  | value (v : Value)
  | table (t : Table)
  /-- An array of tables. -/
  | tables (ts : List Table)

/-- A table. -/
structure Table where
  implicit : Bool
  dotted : Bool
  items : List (String × Item)

end

namespace Table

/-- A table that is written, without items so far. -/
def empty : Table := ⟨false, false, []⟩

/-- The table with this item under `key`, in the place of an earlier one. -/
def set (t : Table) (key : String) (item : Item) : Table :=
  { t with items := (key, item) :: t.items.filter (·.1 ≠ key) }

/-- The item under `key`. -/
def get? (t : Table) (key : String) : Option Item := t.items.lookup key

/-- Changes the table at the end of a path. Tables on the way are made where they are missing; the
last one of an array of tables is meant. Dotted keys cannot pass through a table that is written. -/
def change (dotted : Bool) (f : Table → Option Table) : List String → Table → Option Table
  | [], t => f t
  | key :: path, t =>
    match t.get? key with
    | none => (change dotted f path ⟨true, dotted, []⟩).map fun inner => t.set key (.table inner)
    | some (.table inner) =>
      if dotted && !inner.implicit then none
      else (change dotted f path inner).map fun inner => t.set key (.table inner)
    | some (.tables ts) =>
      match ts.getLast? with
      | some last =>
        (change dotted f path last).map fun last => t.set key (.tables (ts.dropLast ++ [last]))
      | none => none
    | some (.value _) => none

/-- Adds a value under a key that may be dotted: every key once, and dotted keys only into tables
that dotted keys made. -/
def addValue (path : List String) (key : String) (v : Value) : Table → Option Table :=
  change true (fun t =>
    if t.dotted == path.isEmpty then none
    else if (t.get? key).isSome then none
    else some (t.set key (.value v))) path

/-- Opens the table `key`, which may have been implicit so far. -/
def openTable (key : String) (t : Table) : Option Table :=
  match t.get? key with
  | none => some (t.set key (.table .empty))
  | some (.table inner) =>
    if inner.implicit && !inner.dotted then
      some (t.set key (.table { inner with implicit := false }))
    else none
  | _ => none

/-- Adds a table to the array of tables `key`. -/
def pushTable (key : String) (t : Table) : Option Table :=
  match t.get? key with
  | none => some (t.set key (.tables [.empty]))
  | some (.tables ts) => some (t.set key (.tables (ts ++ [.empty])))
  | _ => none

/-- The inline table with these members. -/
def ofMembers? (members : List (List String × String × Value)) : Option Table :=
  members.foldlM (fun t (path, key, v) => t.addValue path key v) .empty

end Table

/-- A line of a document. -/
inductive Line where
  | blank
  | header (path : List String) (key : String)
  | arrayHeader (path : List String) (key : String)
  | member (path : List String) (key : String) (v : Value)

/-- The table of a document so far, and the path of the table that members go to. -/
structure Document where
  root : Table
  current : List String

namespace Document

/-- The document after a line. -/
def add? (d : Document) : Line → Option Document
  | .blank => some d
  | .header path key =>
    (d.root.change false (Table.openTable key) path).map fun root => ⟨root, path ++ [key]⟩
  | .arrayHeader path key =>
    (d.root.change false (Table.pushTable key) path).map fun root => ⟨root, path ++ [key]⟩
  | .member path key v =>
    (d.root.change false (Table.addValue path key v) d.current).map fun root => { d with root }

/-- The table that lines write. -/
def ofLines? (lines : List Line) : Option Table :=
  (lines.foldlM add? ⟨.empty, []⟩).map Document.root

end Document

end QueryNotation.Toml
