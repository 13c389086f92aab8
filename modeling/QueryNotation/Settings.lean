import QueryNotation.Registry
import QueryNotation.Toml.Document

/-! Settings of a compiler, read from TOML. Keys that are not settings are ignored, and missing ones
have defaults. -/

namespace QueryNotation

/-- The settings. -/
structure Settings where
  dialect : String := "ansi-sql"
  nested : NestedPolicy := .skip
  duplicates : DuplicatePolicy := .replace
deriving DecidableEq, Repr

/-- What stands in the place of a settings file. -/
inductive FileState where
  | absent
  | directory
  | regular (bytes : ByteArray)

namespace Toml

/-- Whether an item has no parts. -/
def Item.isEmpty : Item → Bool
  | .value (.array []) => true
  | .value (.inline t) => t.items.isEmpty
  | .table t => t.items.isEmpty
  | .tables ts => ts.isEmpty
  | _ => false

/-- The text that an item is. -/
def Item.text? : Item → Option String
  | .value (.text s) => some s
  | _ => none

/-- The word that a table with one key stands for: the key, if it has nothing under it. -/
def Table.word? (t : Table) : Option String :=
  match t.items with
  | [(key, item)] => if item.isEmpty then some key else none
  | _ => none

/-- The word that an item is: text, or a table with the word as its only key. -/
def Item.word? : Item → Option String
  | .value (.text s) => some s
  | .value (.inline t) => t.word?
  | .table t => t.word?
  | _ => none

end Toml

namespace Settings

/-- The policy for nested fields that a word names. -/
def nestedOfWord? : String → Option NestedPolicy
  | "skip" => some .skip
  | "reject" => some .reject
  | _ => none

/-- The policy for taken names that a word names. -/
def duplicatesOfWord? : String → Option DuplicatePolicy
  | "replace" => some .replace
  | "reject" => some .reject
  | _ => none

/-- The setting under a key, or its default. -/
def setting? (t : Toml.Table) (key : String) (default : α) (read : Toml.Item → Option α) :
    Option α :=
  match t.get? key with
  | some item => read item
  | none => some default

/-- The settings in a table. -/
def ofTable? (t : Toml.Table) : Option Settings := do
  let defaults : Settings := {}
  let dialect ← setting? t "dialect" defaults.dialect Toml.Item.text?
  let nested ← setting? t "nested_entries" defaults.nested (·.word? >>= nestedOfWord?)
  let duplicates ←
    setting? t "duplicate_dialects" defaults.duplicates (·.word? >>= duplicatesOfWord?)
  return { dialect, nested, duplicates }

/-- The settings that a TOML text writes. -/
def ofText (s : String) : Except Failure Settings :=
  match Toml.ofText? s >>= ofTable? with
  | some settings => .ok settings
  | none => .error .settings

/-- The settings in a file, which must be there. -/
def load : FileState → Except Failure Settings
  | .regular bytes =>
    match String.fromUTF8? bytes with
    | some s => ofText s
    | none => .error .file
  | _ => .error .file

/-- The settings in the first regular file, or the defaults. -/
def discover (candidates : List FileState) : Except Failure Settings :=
  match candidates.find? fun f => match f with | .regular _ => true | _ => false with
  | some file => load file
  | none => .ok {}

/-- Applies settings: the registry takes over the policy for taken names, and then gives the
compiler for the dialect. -/
def build (s : Settings) (r : Registry) : Registry × Except Failure Compiler :=
  let r := r.setDuplicates s.duplicates
  (r, (r.compilerFor s.dialect).map fun c => { c with nested := s.nested })

end Settings

end QueryNotation
