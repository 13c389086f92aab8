import QueryNotation.Compiler
import QueryNotation.Proofs.Grammar

/-! The two policies on nested fields. Both lower the same rows; they differ in the entries of an
insert or upsert, which are reached only if the target is there and has a path. There `skip` leaves
out every nested field and reports it, and `reject` stops at the first one. -/

namespace QueryNotation

/-- An entry without its nested fields. -/
def Entry.flat (e : Entry) : Entry := e.filter fun field => !field.2.isNested

def Payload.flat (p : Payload) : Payload :=
  { p with entries := p.entries.map (·.map Entry.flat) }

def Statement.flat : Statement → Statement
  | .insert i => .insert { i with payload := i.payload.flat }
  | .upsert u => .upsert { u with payload := u.payload.flat }
  | s => s

/-- A query without the nested fields of its inserts and upserts. -/
def Query.flat (q : Query) : Query :=
  { q with
    insert := q.insert.map fun i => { i with payload := i.payload.flat }
    upsert := q.upsert.map fun u => { u with payload := u.payload.flat } }

/-- Whether a target is there and has a path. -/
def hasPath (target : Option Ref) : Bool := target.any fun r => !r.path.isEmpty

/-- The fields of the entries for a target, row by row. -/
def Payload.fieldsFor (target : Option Ref) (p : Payload) : List (String × Json) :=
  if hasPath target then (p.entries.getD []).flatten else []

/-- The fields of the entries that lowering reaches, row by row. -/
def Statement.reachedFields : Statement → List (String × Json)
  | .insert i => i.payload.fieldsFor i.into
  | .upsert u => u.payload.fieldsFor u.target
  | _ => []

def Query.reachedFields (q : Query) : List (String × Json) :=
  (q.statement?.map Statement.reachedFields).getD []

/-- The warnings of a lowering, one for each field that it dropped. -/
def Lowered.warnings (l : Lowered α) : List Event := l.dropped.map .dropped

section Entries

variable (k : String) (e : Entry)

theorem Entry.scalars_cons_toJson (s : Scalar) :
    Entry.scalars ((k, s.toJson) :: e) = (k, s) :: Entry.scalars e := by
  simp [Entry.scalars]

theorem Entry.scalars_cons_nested {v : Json} (h : v.isNested) :
    Entry.scalars ((k, v) :: e) = Entry.scalars e := by
  simp [Entry.scalars, (Json.scalar?_eq_none_iff v).mpr h]

theorem Entry.nested_cons (v : Json) :
    Entry.nested ((k, v) :: e) = if v.isNested then k :: Entry.nested e else Entry.nested e := by
  have hnested : v.scalar?.isNone = v.isNested := by
    rw [Bool.eq_iff_iff, Option.isNone_iff_eq_none, Json.scalar?_eq_none_iff]
  simp only [Entry.nested, List.filterMap_cons, hnested]
  cases v.isNested <;> rfl

/-- The value of a field is nested or a scalar. -/
theorem Json.nested_or_scalar (v : Json) : v.isNested ∨ ∃ s : Scalar, v = s.toJson := by
  cases v with
  | null => exact .inr ⟨.null, rfl⟩
  | bool b => exact .inr ⟨.bool b, rfl⟩
  | number n => exact .inr ⟨.number n, rfl⟩
  | text s => exact .inr ⟨.text s, rfl⟩
  | array items => exact .inl rfl
  | object members => exact .inl rfl

theorem Scalar.isNested_toJson (s : Scalar) : s.toJson.isNested = false := by
  cases s <;> rfl

theorem Entry.scalars_flat : Entry.scalars e.flat = Entry.scalars e := by
  unfold Entry.flat
  induction e with
  | nil => rfl
  | cons field e ih =>
    obtain ⟨k, v⟩ := field
    rcases v.nested_or_scalar with h | ⟨s, rfl⟩
    · rw [List.filter_cons_of_neg (by simp [h]), ih, Entry.scalars_cons_nested k e h]
    · rw [List.filter_cons_of_pos (by simp [s.isNested_toJson]), Entry.scalars_cons_toJson, ih,
        Entry.scalars_cons_toJson]

theorem Entry.nested_eq : Entry.nested e = (e.filter (·.2.isNested)).map Prod.fst := by
  induction e with
  | nil => rfl
  | cons field e ih =>
    obtain ⟨k, v⟩ := field
    rw [Entry.nested_cons, ih, List.filter_cons]
    cases v.isNested <;> rfl

theorem Entry.nested_flat : Entry.nested e.flat = [] := by
  rw [Entry.nested_eq_nil_iff]
  intro field hfield
  simpa using (List.mem_filter.mp hfield).2

end Entries

namespace Payload

variable (p : Payload)

/-- Dropping row by row is dropping from all the fields in a row. -/
theorem nestedFields_eq :
    p.nestedFields = ((p.entries.getD []).flatten.filter (·.2.isNested)).map Prod.fst := by
  unfold nestedFields
  induction p.entries.getD [] with
  | nil => rfl
  | cons e es ih =>
    rw [List.flatMap_cons, ih, Entry.nested_eq, List.flatten_cons, List.filter_append,
      List.map_append]

theorem nestedFields_flat : p.flat.nestedFields = [] := by
  rw [nestedFields_eq_nil_iff]
  intro es hes e he
  obtain ⟨es', _, rfl⟩ := Option.map_eq_some_iff.mp hes
  obtain ⟨e', _, rfl⟩ := List.mem_map.mp he
  exact (Entry.nested_eq_nil_iff _).mp (Entry.nested_flat e')

/-- An entry keeps its scalars, so the rows and their check stay the same. -/
theorem toInsert_flat (into : Sql.Ref) : p.flat.toInsert into = p.toInsert into := by
  have hentries : p.flat.entries.map (·.map Entry.scalars) =
      p.entries.map (·.map Entry.scalars) := by
    cases h : p.entries with
    | none => simp [flat, h]
    | some es => simp [flat, h, Entry.scalars_flat]
  unfold toInsert
  rw [hentries]
  rfl

variable {p}

theorem lower_skip (into : Sql.Ref) :
    p.lower .skip into = ⟨p.nestedFields, p.toInsert into⟩ := lower_eq ..

/-- Without nested fields, the policies agree. -/
theorem lower_of_flat (h : p.nestedFields = []) (policy : NestedPolicy) (into : Sql.Ref) :
    p.lower policy into = .of (p.toInsert into) := by
  rw [lower_eq, h, ← Lowered.of_eq_meeting]

theorem lower_reject_of_nested {field : String} {fields : List String}
    (h : p.nestedFields = field :: fields) (into : Sql.Ref) :
    p.lower .reject into = .of (.error (.nestedEntry field)) := by
  rw [lower_eq, h]
  rfl

/-- Lowering meets the target before the entries, so a target that is missing or has no path is an
error whatever the payload and the policy are. -/
theorem lowerInto_cases (statement : Keyword) (target : Option Ref) :
    (∃ into, hasPath target ∧
      ∀ policy p, lowerInto policy statement target p = p.lower policy into) ∨
    ∃ e, ¬ hasPath target ∧ ∀ policy p, lowerInto policy statement target p = .of (.error e) := by
  cases target with
  | none => exact .inr ⟨_, Bool.false_ne_true, fun _ _ => rfl⟩
  | some r =>
    by_cases h : r.path.isEmpty
    · have htable : r.toTable = .error .emptyReference := if_pos h
      exact .inr ⟨_, by simp [hasPath, h], fun _ _ => by rw [lowerInto, htable]⟩
    · have htable : r.toTable = .ok ⟨r.path, r.label⟩ := if_neg h
      exact .inl ⟨_, by simp [hasPath, h], fun _ _ => by rw [lowerInto, htable]⟩

variable (statement : Keyword) (target : Option Ref) (p : Payload)

theorem outcome_lowerInto_flat (policy : NestedPolicy) :
    (p.lowerInto .skip statement target).outcome =
      (p.flat.lowerInto policy statement target).outcome := by
  rcases lowerInto_cases statement target with ⟨into, -, h⟩ | ⟨e, -, h⟩
  · rw [h, h, lower_skip, lower_of_flat p.nestedFields_flat, toInsert_flat]
    rfl
  · rw [h, h]

theorem dropped_lowerInto_skip : (p.lowerInto .skip statement target).dropped =
    ((p.fieldsFor target).filter (·.2.isNested)).map Prod.fst := by
  unfold fieldsFor
  rcases lowerInto_cases statement target with ⟨into, hpath, h⟩ | ⟨e, hpath, h⟩
  · rw [h, lower_skip, if_pos hpath]
    exact p.nestedFields_eq
  · rw [h, if_neg hpath]
    rfl

theorem lowerInto_reject : p.lowerInto .reject statement target =
    match (p.fieldsFor target).find? (·.2.isNested) with
    | some field => .of (.error (.nestedEntry field.1))
    | none => .of (p.lowerInto .skip statement target).outcome := by
  unfold fieldsFor
  rcases lowerInto_cases statement target with ⟨into, hpath, h⟩ | ⟨e, hpath, h⟩
  · have hfields := p.nestedFields_eq
    rw [h, h, if_pos hpath, ← List.head?_filter]
    cases hnested : (p.entries.getD []).flatten.filter (·.2.isNested) with
    | nil =>
      rw [hnested] at hfields
      rw [lower_of_flat hfields, lower_of_flat hfields]
      rfl
    | cons field fields =>
      rw [hnested] at hfields
      exact lower_reject_of_nested hfields into
  · rw [h, h, if_neg hpath]
    rfl

end Payload

namespace Statement

variable (s : Statement) (n : Nat)

theorem outcome_lower_flat (policy : NestedPolicy) :
    (s.lower .skip n).outcome = (s.flat.lower policy n).outcome := by
  cases s with
  | insert i => exact congrArg (Except.map _) (Payload.outcome_lowerInto_flat _ _ _ policy)
  | upsert u => exact congrArg (Except.map _) (Payload.outcome_lowerInto_flat _ _ _ policy)
  | _ => rfl

theorem dropped_lower_skip : (s.lower .skip n).dropped =
    (s.reachedFields.filter (·.2.isNested)).map Prod.fst := by
  cases s with
  | insert i => exact Payload.dropped_lowerInto_skip ..
  | upsert u => exact Payload.dropped_lowerInto_skip ..
  | _ => rfl

theorem lower_reject : s.lower .reject n =
    match s.reachedFields.find? (·.2.isNested) with
    | some field => .of (.error (.nestedEntry field.1))
    | none => .of (s.lower .skip n).outcome := by
  cases s with
  | insert i =>
    simp only [Statement.lower, Statement.reachedFields, Payload.lowerInto_reject]
    split <;> rfl
  | upsert u =>
    simp only [Statement.lower, Statement.reachedFields, Payload.lowerInto_reject]
    split <;> rfl
  | _ => rfl

end Statement

namespace Query

variable (q : Query)

theorem statements_flat : q.flat.statements = q.statements.map Statement.flat := by
  obtain ⟨select, insert, update, delete, upsert, others⟩ := q
  cases select <;> cases insert <;> cases update <;> cases delete <;> cases upsert <;> rfl

theorem statement?_flat : q.flat.statement? = q.statement?.map Statement.flat := by
  rw [statement?, statements_flat, List.head?_map, statement?]

theorem outcome_lower_flat (n : Nat) (policy : NestedPolicy) :
    (q.lower .skip n).outcome = (q.flat.lower policy n).outcome := by
  unfold Query.lower
  rw [statement?_flat]
  cases q.statement? with
  | none => rfl
  | some s => exact s.outcome_lower_flat n policy

theorem dropped_lower_skip (n : Nat) : (q.lower .skip n).dropped =
    (q.reachedFields.filter (·.2.isNested)).map Prod.fst := by
  unfold Query.lower Query.reachedFields
  cases q.statement? with
  | none => rfl
  | some s => exact s.dropped_lower_skip n

theorem lower_reject (n : Nat) : q.lower .reject n =
    match q.reachedFields.find? (·.2.isNested) with
    | some field => .of (.error (.nestedEntry field.1))
    | none => .of (q.lower .skip n).outcome := by
  unfold Query.lower Query.reachedFields
  cases q.statement? with
  | none => rfl
  | some s => exact s.lower_reject n

end Query

/-- The warnings in the log of a compilation are those of the lowering. -/
theorem Compiler.warnings_compileValid (c : Compiler) (q : Query) :
    (c.compileValid q).events.filter (·.level = .warn) = (q.lower c.nested 0).warnings := by
  simp only [compileValid, Lowered.warnings]
  split
  · simp [failed, Event.level]
  · split <;> simp [failed, Event.level]

/-- Under `skip` a query is lowered as if it had no nested fields, and there is a warning for each
of them in order, whether or not a row is left empty. Under `reject` the first of them is an error,
and a query without any is lowered as under `skip`. -/
theorem Query.lower_under_policies (q : Query) (n : Nat) :
    (∀ policy, (q.lower .skip n).outcome = (q.flat.lower policy n).outcome) ∧
      ((q.lower .skip n).warnings.map fun w => (w.level, w.message, w.fields)) =
        ((q.reachedFields.filter (·.2.isNested)).map fun field =>
          (.warn, "Dropping nested insert payload field", [("field", field.1)])) ∧
      (q.lower .reject n).outcome =
        (match q.reachedFields.find? (·.2.isNested) with
        | some field => .error (.nestedEntry field.1)
        | none => (q.lower .skip n).outcome) ∧
      (q.lower .reject n).warnings = [] ∧
      ∀ d policy, ((Compiler.compileValid ⟨d, policy⟩ q).events.filter (·.level = .warn)) =
        (q.lower policy 0).warnings := by
  refine ⟨q.outcome_lower_flat n, ?_, ?_, ?_, fun d policy => Compiler.warnings_compileValid _ q⟩
  · rw [Lowered.warnings, dropped_lower_skip, List.map_map, List.map_map]
    rfl
  · rw [lower_reject]
    split <;> rfl
  · rw [lower_reject]
    split <;> rfl

/-- A field is reported also if its row is then found to be empty. -/
example : Payload.lower .skip ⟨["A"], none⟩ ⟨none,
      some [[("a", .array []), ("b", .null)], [("c", .object [])]], none, none⟩ =
    ⟨["a", "c"], .error (.emptyRow 1)⟩ := rfl

end QueryNotation
