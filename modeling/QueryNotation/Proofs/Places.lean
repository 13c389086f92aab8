import QueryNotation.Proofs.Agreement
import QueryNotation.Proofs.Success

/-! The places of expressions in a query: what stands there has no part in validity. A column, a
grouping, a condition or an assigned value may be replaced by any JSON value, and the query is
refused for the same reason as before, or again for none. So what is wrong with an expression only
comes out when the query is lowered. -/

namespace QueryNotation

namespace Json

def isNull : Json → Bool
  | .null => true
  | _ => false

def isArray : Json → Bool
  | .array _ => true
  | _ => false

def isObject : Json → Bool
  | .object _ => true
  | _ => false

/-- Changes the value of a key. What is no object, or lacks the key, stays as it is. -/
def updateMember (key : String) (f : Json → Json) : Json → Json
  | .object members => .object (members.map fun m => (m.1, if m.1 = key then f m.2 else m.2))
  | v => v

/-- Changes the item at a position. What is no array, or is too short, stays as it is. -/
def updateItem (i : Nat) (f : Json → Json) : Json → Json
  | .array items => .array (items.modify i f)
  | v => v

/-- Changes the sources and the condition of a join, which is written as an object or as an array of
its members in order. An array that starts with an array is a reference, and stays as it is. -/
def updateJoin (args on : Json → Json) : Json → Json
  | .array [kind, a, o, label] =>
    if kind.isArray then .array [kind, a, o, label] else .array [kind, args a, on o, label]
  | v => (v.updateMember "args" args).updateMember "on" on

end Json

mutual

/-- A place of an expression below a select. -/
inductive SelectPlace where
  | filter
  | having
  | column (i : Nat)
  | groupBy (i : Nat)
  | source (p : SourcePlace)

/-- A place of an expression below a source: the condition of a join, or a place in one of the
sources of a join or in a nested select. -/
inductive SourcePlace where
  | on
  | arg (i : Nat) (p : SourcePlace)
  | select (p : SelectPlace)

end

mutual

/-- Puts `w` at a place of the body of a select. -/
def SelectPlace.replace (w : Json) : SelectPlace → Json → Json
  | .filter => Json.updateMember "where" fun _ => w
  | .having => Json.updateMember "having" fun _ => w
  | .column i => Json.updateMember "columns" (Json.updateItem i fun _ => w)
  | .groupBy i => Json.updateMember "groupBy" (Json.updateItem i fun _ => w)
  | .source p => Json.updateMember "from" (p.replace w)

/-- Puts `w` at a place of a source. -/
def SourcePlace.replace (w : Json) : SourcePlace → Json → Json
  | .on => Json.updateJoin id fun _ => w
  | .arg i p => Json.updateJoin (Json.updateItem i (p.replace w)) id
  | .select p => Json.updateMember "SELECT" (p.replace w)

end

/-- A place of an expression in a query: the filter of a statement or its `having`, a place below a
select, or the value of a column that is updated. -/
inductive Place where
  | filter (keyword : Keyword)
  | having (keyword : Keyword)
  | select (p : SelectPlace)
  | assignment (column : String)

namespace Place

/-- The keyword of the statement that a place is in. -/
def keyword : Place → Keyword
  | .filter keyword => keyword
  | .having keyword => keyword
  | .select _ => .select
  | .assignment _ => .update

/-- Puts `w` at a place of the body of a statement. -/
def replaceIn (w : Json) : Place → Json → Json
  | .filter _ => Json.updateMember "where" fun _ => w
  | .having _ => Json.updateMember "having" fun _ => w
  | .select p => p.replace w
  | .assignment column => Json.updateMember "set" (Json.updateMember column fun _ => w)

/-- Puts `w` at a place of a query. -/
def replace (w : Json) (p : Place) : Json → Json :=
  Json.updateMember p.keyword.text (p.replaceIn w)

end Place

section Updates

namespace Json

variable {key : String} {f : Json → Json}

theorem get?_updateMember (key : String) (f : Json → Json) (v : Json) (key' : String) :
    (v.updateMember key f).get? key' =
      if key' = key then (v.get? key').map f else v.get? key' := by
  cases v with
  | object members =>
    simp only [updateMember, get?, ← List.map_reverse]
    induction members.reverse with
    | nil => simp
    | cons m ms ih =>
      obtain ⟨k, x⟩ := m
      rw [List.map_cons, lookup_cons_ite, lookup_cons_ite, ih]
      by_cases hk : key' = k
      · subst hk
        by_cases hkey : key' = key <;> simp [hkey]
      · simp [hk]
  | _ => simp [updateMember, get?]

theorem isNull_updateMember (v : Json) : (v.updateMember key f).isNull = v.isNull := by
  cases v <;> rfl

theorem isNull_updateItem (i : Nat) (v : Json) : (v.updateItem i f).isNull = v.isNull := by
  cases v <;> rfl

theorem isArray_updateItem (i : Nat) (v : Json) : (v.updateItem i f).isArray = v.isArray := by
  cases v <;> rfl

theorem isNull_updateJoin (args on : Json → Json) (v : Json) :
    (v.updateJoin args on).isNull = v.isNull := by
  unfold updateJoin
  split
  · split <;> rfl
  · rw [isNull_updateMember, isNull_updateMember]

theorem isObject_updateMember (v : Json) : (v.updateMember key f).isObject = v.isObject := by
  cases v <;> rfl

theorem updateMember_of_isObject {v : Json} (h : ¬ v.isObject) : v.updateMember key f = v := by
  cases v with
  | object members => exact absurd rfl h
  | _ => rfl

end Json

theorem SourcePlace.isNull_replace (p : SourcePlace) (w v : Json) :
    (p.replace w v).isNull = v.isNull := by
  cases p with
  | on => exact v.isNull_updateJoin _ _
  | arg i p => exact v.isNull_updateJoin _ _
  | select p => exact v.isNull_updateMember

end Updates

section Records

theorem Json.record?_of_isObject {v : Json} (hv : v.isObject) (keys : List String) (least : Nat) :
    v.reading.node.record? keys least =
      some (keys.map fun key => (v.get? key).map Json.reading) := by
  cases v with
  | object members => exact Json.record?_reading keys least members
  | _ => cases hv

/-- A record does not see a change under a key that it does not have. -/
theorem Json.record?_updateMember {key : String} {f : Json → Json} {keys : List String}
    (hkey : key ∉ keys) {least : Nat} {v : Json} :
    (v.updateMember key f).reading.node.record? keys least = v.reading.node.record? keys least := by
  cases v with
  | object members =>
    rw [Json.record?_of_isObject rfl, Json.record?_of_isObject rfl, Option.some.injEq]
    refine List.map_congr_left fun k hk => ?_
    have hne : k ≠ key := fun h => hkey (h ▸ hk)
    rw [Json.get?_updateMember, if_neg hne]
  | _ => rfl

theorem Ref.ofNode?_congr {node node' : Node Reading}
    (h : node'.record? ["ref", "as", "cast", "param"] 3 =
      node.record? ["ref", "as", "cast", "param"] 3) : Ref.ofNode? node' = Ref.ofNode? node := by
  rw [Ref.ofNode?, h]
  rfl

end Records

section Sources

/-- The verdict on a join whose sources have these verdicts. -/
def joinVerdict (verdicts : List (Except ValidationError Unit)) : Except ValidationError Unit :=
  if verdicts.length = 2 then verdicts.foldr (fun verdict rest => do verdict; rest) (pure ())
  else throw (.joinArity verdicts.length)

theorem validateSources_eq (sources : List Source) :
    validateSources sources =
      (sources.map Source.validate).foldr (fun verdict rest => do verdict; rest) (pure ()) := by
  induction sources with
  | nil => rfl
  | cons s sources ih => rw [validateSources, ih, List.map_cons, List.foldr_cons]

theorem Join.validate_eq (j : Join) : j.validate = joinVerdict (j.args.map Source.validate) := by
  obtain ⟨kind, args, on, label⟩ := j
  rw [Join.validate, joinVerdict, List.length_map, validateSources_eq]

/-- The verdicts on the sources that a value lists, if it is a list. -/
def sourceVerdicts? (r : Reading) : Option (List (Except ValidationError Unit)) :=
  (r.list? fun r => some r.source).map (List.map Source.validate)

theorem Join.validate_ofNode? {node : Node Reading} {kind args on label : Option Reading}
    (h : node.record? ["join", "args", "on", "as"] 4 = some [kind, args, on, label]) :
    (Join.ofNode? node).map Join.validate =
      (required? (Reading.word? JoinKind.ofName?) kind).bind fun _ =>
      (default? [] sourceVerdicts? args).bind fun verdicts =>
      (optional? Reading.text? label).bind fun _ => some (joinVerdict verdicts) := by
  rw [Join.ofNode?, h]
  simp only [Option.bind_eq_bind, Option.bind_some, optional?_some]
  cases required? (Reading.word? JoinKind.ofName?) kind with
  | none => rfl
  | some kind =>
    have hargs : default? [] sourceVerdicts? args =
        (default? [] (Reading.list? fun r => some r.source) args).map
          (List.map Source.validate) := by
      cases args <;> rfl
    rw [hargs]
    cases default? [] (Reading.list? fun r => some r.source) args with
    | none => rfl
    | some sources =>
      cases optional? Reading.text? label with
      | none => rfl
      | some label => simp [Join.validate_eq]

theorem Select.isSome_nestedOfNode? {node : Node Reading} {select label : Option Reading}
    (h : node.record? ["SELECT", "as"] 2 = some [select, label]) :
    (Select.nestedOfNode? node).isSome =
      ((required? Reading.select select).isSome && (optional? Reading.text? label).isSome) := by
  rw [Select.nestedOfNode?, h]
  simp only [Option.bind_eq_bind, Option.bind_some]
  cases required? Reading.select select with
  | none => rfl
  | some s => cases optional? Reading.text? label <;> rfl

/-- The verdict on a source depends on whether it is a reference, on the verdict on the join that it
may be, and on whether it is a select. -/
theorem Source.validate_congr {node node' : Node Reading}
    (href : Ref.ofNode? node' = Ref.ofNode? node)
    (hjoin : (Join.ofNode? node').map Join.validate = (Join.ofNode? node).map Join.validate)
    (hselect : (Select.nestedOfNode? node').isSome = (Select.nestedOfNode? node).isSome) :
    (Source.ofNode node').validate = (Source.ofNode node).validate := by
  rw [Source.ofNode, Source.ofNode, href]
  cases Ref.ofNode? node with
  | some r => rfl
  | none =>
    revert hjoin hselect
    cases Join.ofNode? node' <;> cases Join.ofNode? node <;>
      cases Select.nestedOfNode? node' <;> cases Select.nestedOfNode? node <;>
      simp +contextual [Source.validate]

theorem map_modify_of_eq {f : α → α} {g : α → β} (h : ∀ x, g (f x) = g x) (l : List α) (i : Nat) :
    (l.modify i f).map g = l.map g := by
  induction l generalizing i with
  | nil => simp
  | cons x l ih => cases i <;> simp [h, ih]

theorem sourceVerdicts?_array (items : List Json) :
    sourceVerdicts? (Json.array items).reading =
      some (items.map fun v => v.reading.source.validate) := by
  have hmap : items.mapM (fun v => some v.reading.source) =
      some (items.map fun v => v.reading.source) := List.mapM_pure
  rw [sourceVerdicts?, Json.list?_array, hmap, Option.map_some, List.map_map]
  rfl

theorem sourceVerdicts?_updateItem {f : Json → Json}
    (hf : ∀ v, (f v).reading.source.validate = v.reading.source.validate) (i : Nat) (v : Json) :
    sourceVerdicts? (v.updateItem i f).reading = sourceVerdicts? v.reading := by
  cases v with
  | array items =>
    rw [Json.updateItem, sourceVerdicts?_array, sourceVerdicts?_array]
    exact congrArg some (map_modify_of_eq hf items i)
  | _ => rfl

theorem Json.list?_of_isArray {v : Json} (h : ¬ v.isArray) (f : Reading → Option α) :
    v.reading.list? f = none := by
  cases v with
  | array items => exact absurd rfl h
  | _ => rfl

variable {args on : Json → Json}

-- An array of four items that starts with no array is neither a reference nor a select.
theorem Source.validate_updateJoin_array
    (hargs : ∀ v, sourceVerdicts? (args v).reading = sourceVerdicts? v.reading)
    {kind a o label : Json} (hkind : ¬ kind.isArray) :
    (Json.array [kind, args a, on o, label]).reading.source.validate =
      (Json.array [kind, a, o, label]).reading.source.validate := by
  have hnode (a o : Json) : (Json.array [kind, a, o, label]).reading.node =
      .array [kind.reading, a.reading, o.reading, label.reading] := by
    rw [Json.node_reading]
    rfl
  have href (a o : Json) : Ref.ofNode? (Json.array [kind, a, o, label]).reading.node = none := by
    rw [hnode, Ref.ofNode?]
    change ((kind.reading.list? Reading.text?).bind fun path => _) = none
    rw [Json.list?_of_isArray hkind, Option.bind_none]
  have hselect (a o : Json) :
      Select.nestedOfNode? (Json.array [kind, a, o, label]).reading.node = none := by
    rw [hnode]
    rfl
  have hrecord (a o : Json) :
      (Json.array [kind, a, o, label]).reading.node.record? ["join", "args", "on", "as"] 4 =
        some [some kind.reading, some a.reading, some o.reading, some label.reading] := by
    rw [hnode]
    rfl
  rw [Json.source_reading, Json.source_reading]
  refine Source.validate_congr ?_ ?_ ?_
  · rw [href, href]
  · rw [Join.validate_ofNode? (hrecord _ _), Join.validate_ofNode? (hrecord _ _), default?, hargs]
    rfl
  · rw [hselect, hselect]

theorem Source.validate_updateJoin_object
    (hargs : ∀ v, sourceVerdicts? (args v).reading = sourceVerdicts? v.reading) {v : Json}
    (hv : v.isObject) :
    ((v.updateMember "args" args).updateMember "on" on).reading.source.validate =
      v.reading.source.validate := by
  have hrecord {keys : List String} (hon : "on" ∉ keys) (hkeys : "args" ∉ keys) (least : Nat) :
      ((v.updateMember "args" args).updateMember "on" on).reading.node.record? keys least =
        v.reading.node.record? keys least := by
    rw [Json.record?_updateMember hon, Json.record?_updateMember hkeys]
  have hobject : ((v.updateMember "args" args).updateMember "on" on).isObject := by
    rw [Json.isObject_updateMember, Json.isObject_updateMember, hv]
  have hverdicts (found : Option Json) :
      default? [] sourceVerdicts? ((found.map args).map Json.reading) =
        default? [] sourceVerdicts? (found.map Json.reading) := by
    cases found with
    | none => rfl
    | some v => exact hargs v
  rw [Json.source_reading, Json.source_reading]
  refine Source.validate_congr ?_ ?_ ?_
  · exact Ref.ofNode?_congr (hrecord (by decide) (by decide) 3)
  · rw [Join.validate_ofNode? (Json.record?_of_isObject hobject _ _),
      Join.validate_ofNode? (Json.record?_of_isObject hv _ _)]
    simp only [Json.get?_updateMember, String.reduceEq, reduceIte, hverdicts]
  · rw [Select.nestedOfNode?, Select.nestedOfNode?, hrecord (by decide) (by decide)]

/-- A join keeps its verdict when its condition is changed, and its sources keep theirs. -/
theorem Source.validate_updateJoin
    (hargs : ∀ v, sourceVerdicts? (args v).reading = sourceVerdicts? v.reading) (v : Json) :
    (v.updateJoin args on).reading.source.validate = v.reading.source.validate := by
  unfold Json.updateJoin
  split
  · split
    · rfl
    · rename_i hkind
      exact Source.validate_updateJoin_array hargs hkind
  · by_cases hv : v.isObject
    · exact Source.validate_updateJoin_object hargs hv
    · rw [Json.updateMember_of_isObject hv, Json.updateMember_of_isObject hv]

end Sources

section Selects

/-- The verdict on the source of a select, which must not be missing or null. -/
def fromVerdict (found : Option Json) : Except ValidationError Unit :=
  match found.filter (!·.isNull) with
  | some v => v.reading.source.validate
  | none => throw (.missingClause .select "from")

/-- Whether the members of a select that hold more than expressions have their form. -/
def selectFits (v : Json) : Bool :=
  ((v.get? "columns").all fun x => x.isNull || x.isArray) &&
    ((v.get? "groupBy").all fun x => x.isNull || x.isArray) &&
    (optional? (Reading.list? Reading.order) ((v.get? "orderBy").map Json.reading)).isSome &&
    (optional? Reading.limit ((v.get? "limit").map Json.reading)).isSome &&
    (default? false Reading.bool? ((v.get? "distinct").map Json.reading)).isSome

theorem Json.isNull_reading_eq (v : Json) : v.reading.isNull = v.isNull := by
  rw [Reading.isNull, Json.node_reading]
  cases v <;> rfl

theorem isSome_optional?_list (g : Reading → α) (found : Option Json) :
    (optional? (Reading.list? fun r => some (g r)) (found.map Json.reading)).isSome =
      found.all fun v => v.isNull || v.isArray := by
  cases found with
  | none => rfl
  | some v =>
    rw [Option.map_some, optional?, Json.isNull_reading_eq]
    cases v with
    | array items =>
      have hmap : items.mapM (fun v => some (g v.reading)) =
          some (items.map fun v => g v.reading) :=
        List.mapM_pure
      rw [Json.list?_array, hmap]
      rfl
    | _ => rfl

theorem filter_reading (found : Option Json) :
    (found.map Json.reading).filter (!·.isNull) =
      (found.filter (!·.isNull)).map Json.reading := by
  cases found with
  | none => rfl
  | some v => cases h : v.isNull <;> simp [Option.filter, Json.isNull_reading_eq, h]

theorem bind_const (x : Option α) (y : Option β) :
    (x.bind fun _ => y) = if x.isSome then y else none := by
  cases x <;> rfl

/-- The verdict on a select that is read depends on its source only. -/
theorem Select.validate_reading {v : Json} (hv : v.isObject) :
    v.reading.select.map Select.validate =
      if selectFits v then some (fromVerdict (v.get? "from")) else none := by
  have hsource (found : Option Json) (columns filter groupBy having orderBy limit distinct) :
      Select.validate ⟨((found.filter (!·.isNull)).map Json.reading).map Reading.source, columns,
        filter, groupBy, having, orderBy, limit, distinct⟩ = fromVerdict found := by
    rw [Select.validate, fromVerdict]
    cases found.filter (!·.isNull) <;> rfl
  rw [Json.select_reading, Select.ofNode?, Json.record?_of_isObject hv, selectFits,
    ← isSome_optional?_list Reading.column, ← isSome_optional?_list Reading.expr]
  simp only [Select.keys, List.map_cons, List.map_nil, Option.bind_eq_bind, Option.bind_some,
    optional?_some, Option.map_bind, Function.comp_def, Option.map_some, filter_reading,
    hsource, bind_const, Bool.and_eq_true]
  grind

theorem Select.validate_updateMember {key : String} {f : Json → Json} {v : Json}
    (hfits : selectFits (v.updateMember key f) = selectFits v)
    (hfrom : fromVerdict ((v.updateMember key f).get? "from") = fromVerdict (v.get? "from")) :
    (v.updateMember key f).reading.select.map Select.validate =
      v.reading.select.map Select.validate := by
  by_cases hv : v.isObject
  · have hobject : (v.updateMember key f).isObject := by rw [Json.isObject_updateMember, hv]
    rw [Select.validate_reading hobject, Select.validate_reading hv, hfits, hfrom]
  · rw [Json.updateMember_of_isObject hv]

theorem fromVerdict_map {f : Json → Json} (hnull : ∀ v, (f v).isNull = v.isNull)
    (hf : ∀ v, (f v).reading.source.validate = v.reading.source.validate) (found : Option Json) :
    fromVerdict (found.map f) = fromVerdict found := by
  cases found with
  | none => rfl
  | some v => cases h : v.isNull <;> simp [fromVerdict, Option.filter, hnull, h, hf]

theorem Source.validate_updateSelect {f : Json → Json}
    (hf : ∀ v, (f v).reading.select.isSome = v.reading.select.isSome) (v : Json) :
    (v.updateMember "SELECT" f).reading.source.validate = v.reading.source.validate := by
  by_cases hv : v.isObject
  · have hobject : (v.updateMember "SELECT" f).isObject := by rw [Json.isObject_updateMember, hv]
    have hrequired (found : Option Json) :
        (required? Reading.select ((found.map f).map Json.reading)).isSome =
          (required? Reading.select (found.map Json.reading)).isSome := by
      cases found with
      | none => rfl
      | some v => exact hf v
    rw [Json.source_reading, Json.source_reading]
    refine Source.validate_congr ?_ ?_ ?_
    · exact Ref.ofNode?_congr (Json.record?_updateMember (by decide))
    · rw [Join.ofNode?, Json.record?_updateMember (by decide), ← Join.ofNode?]
    · rw [Select.isSome_nestedOfNode? (Json.record?_of_isObject hobject _ _),
        Select.isSome_nestedOfNode? (Json.record?_of_isObject hv _ _)]
      simp only [Json.get?_updateMember, String.reduceEq, reduceIte, hrequired]
  · rw [Json.updateMember_of_isObject hv]

mutual

theorem SelectPlace.validate_replace (p : SelectPlace) (w v : Json) :
    (p.replace w v).reading.select.map Select.validate =
      v.reading.select.map Select.validate := by
  cases p with
  | filter =>
    rw [SelectPlace.replace]
    refine Select.validate_updateMember ?_ ?_ <;> simp [selectFits, Json.get?_updateMember]
  | having =>
    rw [SelectPlace.replace]
    refine Select.validate_updateMember ?_ ?_ <;> simp [selectFits, Json.get?_updateMember]
  | column i =>
    rw [SelectPlace.replace]
    refine Select.validate_updateMember ?_ ?_ <;>
      simp [selectFits, Json.get?_updateMember, Option.all_map, Json.isNull_updateItem,
        Json.isArray_updateItem]
  | groupBy i =>
    rw [SelectPlace.replace]
    refine Select.validate_updateMember ?_ ?_ <;>
      simp [selectFits, Json.get?_updateMember, Option.all_map, Json.isNull_updateItem,
        Json.isArray_updateItem]
  | source p =>
    rw [SelectPlace.replace]
    refine Select.validate_updateMember ?_ ?_
    · simp [selectFits, Json.get?_updateMember]
    · rw [Json.get?_updateMember, if_pos rfl]
      exact fromVerdict_map (fun v => p.isNull_replace w v) (fun v => p.validate_replace w v) _

theorem SourcePlace.validate_replace (p : SourcePlace) (w v : Json) :
    (p.replace w v).reading.source.validate = v.reading.source.validate := by
  cases p with
  | on => exact Source.validate_updateJoin (fun _ => rfl) v
  | arg i p =>
    have hp (v : Json) := p.validate_replace w v
    exact Source.validate_updateJoin (sourceVerdicts?_updateItem hp i) v
  | select p =>
    have hp (v : Json) : (p.replace w v).reading.select.isSome = v.reading.select.isSome := by
      have hselect := congrArg Option.isSome (p.validate_replace w v)
      rwa [Option.isSome_map, Option.isSome_map] at hselect
    exact Source.validate_updateSelect hp v

end

end Selects

section Statements

variable {v v' : Json}

/-- An insert is read from the values of its keys alone. -/
theorem Insert.ofJson?_congr (hv' : v'.isObject) (hv : v.isObject)
    (h : ∀ key ∈ ["into", "columns", "entries", "values", "rows", "as"],
      v'.get? key = v.get? key) : Insert.form.ofJson? v' = Insert.form.ofJson? v := by
  change Insert.ofReading? v'.reading = Insert.ofReading? v.reading
  rw [Insert.ofReading?, Insert.ofReading?, Json.node_reading, Json.node_reading]
  cases v' with
  | object members' =>
    cases v with
    | object members =>
      simp [Json.node, Node.map, Node.settle, Payload.ofMembers?, Json.member?_reading, h]
    | _ => cases hv
  | _ => cases hv'

/-- An upsert is read from the values of its keys alone. -/
theorem Upsert.ofJson?_congr (hv' : v'.isObject) (hv : v.isObject)
    (h : ∀ key ∈ ["upsert", "into", "columns", "entries", "values", "rows"],
      v'.get? key = v.get? key) : Upsert.form.ofJson? v' = Upsert.form.ofJson? v := by
  change Upsert.ofReading? v'.reading = Upsert.ofReading? v.reading
  rw [Upsert.ofReading?, Upsert.ofReading?, Json.node_reading, Json.node_reading]
  cases v' with
  | object members' =>
    cases v with
    | object members =>
      simp [Json.node, Node.map, Node.settle, Payload.ofMembers?, Json.member?_reading, h]
    | _ => cases hv
  | _ => cases hv'

theorem Delete.validate_ofJson? (hv : v.isObject) :
    (Delete.form.ofJson? v).map Delete.validate =
      (optional? Ref.form.ofReading? ((v.get? "delete").map Json.reading)).map fun target =>
        Delete.validate ⟨target, none⟩ := by
  change (Delete.ofReading? v.reading).map Delete.validate = _
  rw [Delete.ofReading?, Json.record?_of_isObject hv]
  simp only [List.map_cons, List.map_nil, Option.bind_eq_bind, Option.bind_some, optional?_some]
  cases optional? Ref.form.ofReading? ((v.get? "delete").map Json.reading) <;> rfl

/-- Whether an update assigns nothing, if its assignments have their form. -/
def assignsNothing? : Option Json → Option Bool
  | none => some true
  | some .null => some true
  | some (.object members) => some (lastWins members).isEmpty
  | some _ => none

theorem assignsNothing?_eq (found : Option Json) :
    (optional? (Reading.fields? fun r => some r.expr) (found.map Json.reading)).map
      (fun assignments => (assignments.getD []).isEmpty) = assignsNothing? found := by
  cases found with
  | none => rfl
  | some v =>
    rw [Option.map_some, optional?, Json.isNull_reading_eq]
    cases v with
    | object members =>
      rw [Json.fields?_object]
      simp [Json.isNull, assignsNothing?]
    | _ => rfl

theorem assignsNothing?_updateMember (column : String) (f : Json → Json) (found : Option Json) :
    assignsNothing? (found.map (Json.updateMember column f)) = assignsNothing? found := by
  cases found with
  | none => rfl
  | some v =>
    cases v with
    | object members =>
      have hmap := lastWins_map (fun k x => if k = column then f x else x) members
      simp [Json.updateMember, assignsNothing?, hmap]
    | _ => rfl

/-- The verdict on an update with this target, which assigns nothing or something. -/
def updateVerdict (target : Option Ref) (nothing : Bool) : Except ValidationError Unit :=
  if target.isNone then throw (.missingClause .update "update")
  else if nothing then throw (.missingClause .update "set")
  else pure ()

theorem Update.validate_eq (u : Update) :
    u.validate = updateVerdict u.target (u.assignments.getD []).isEmpty := rfl

theorem Update.validate_ofJson? (hv : v.isObject) :
    (Update.form.ofJson? v).map Update.validate =
      (optional? Ref.form.ofReading? ((v.get? "update").map Json.reading)).bind fun target =>
      (assignsNothing? (v.get? "set")).map (updateVerdict target) := by
  change (Update.ofReading? v.reading).map Update.validate = _
  rw [Update.ofReading?, Json.record?_of_isObject hv, ← assignsNothing?_eq]
  simp only [List.map_cons, List.map_nil, Option.bind_eq_bind, Option.bind_some, optional?_some]
  cases optional? Ref.form.ofReading? ((v.get? "update").map Json.reading) with
  | none => rfl
  | some target =>
    cases optional? (Reading.fields? fun r => some r.expr) ((v.get? "set").map Json.reading) with
    | none => rfl
    | some assignments => simp [Update.validate_eq]

/-- The verdict on the statement that the body under a keyword writes, if it writes one. -/
def bodyVerdict? (keyword : Keyword) (body : Json) : Option (Except ValidationError Unit) :=
  (Statement.ofBody? keyword body).map Statement.validate

theorem bodyVerdict?_select (body : Json) :
    bodyVerdict? .select body = body.reading.select.map Select.validate := Option.map_map ..

theorem bodyVerdict?_update (body : Json) :
    bodyVerdict? .update body = (Update.form.ofJson? body).map Update.validate := Option.map_map ..

theorem bodyVerdict?_delete (body : Json) :
    bodyVerdict? .delete body = (Delete.form.ofJson? body).map Delete.validate := Option.map_map ..

/-- Neither the filter of a statement nor its `having` counts for the verdict. -/
theorem bodyVerdict?_updateCondition {key : String} (hkey : key = "where" ∨ key = "having")
    (w : Json) (keyword : Keyword) (hv : v.isObject) :
    bodyVerdict? keyword (v.updateMember key fun _ => w) = bodyVerdict? keyword v := by
  have hobject : (v.updateMember key fun _ => w).isObject := by
    rw [Json.isObject_updateMember, hv]
  have hget {keys : List String} (hkeys : ∀ k ∈ keys, k ≠ "where" ∧ k ≠ "having") :
      ∀ k ∈ keys, (v.updateMember key fun _ => w).get? k = v.get? k := by
    intro k hk
    have hne : k ≠ key := by
      rintro rfl
      exact hkey.elim (hkeys k hk).1 (hkeys k hk).2
    rw [Json.get?_updateMember, if_neg hne]
  cases keyword with
  | select =>
    rw [bodyVerdict?_select, bodyVerdict?_select]
    rcases hkey with rfl | rfl
    · exact SelectPlace.filter.validate_replace w v
    · exact SelectPlace.having.validate_replace w v
  | insert =>
    have hread := Insert.ofJson?_congr hobject hv (hget (by decide))
    rw [bodyVerdict?, bodyVerdict?, Statement.ofBody?, Statement.ofBody?, hread]
  | update =>
    have hsame := @hget ["update", "set"] (by decide)
    rw [bodyVerdict?_update, bodyVerdict?_update, Update.validate_ofJson? hobject,
      Update.validate_ofJson? hv, hsame "update" (by simp), hsame "set" (by simp)]
  | delete =>
    have hsame := @hget ["delete"] (by decide)
    rw [bodyVerdict?_delete, bodyVerdict?_delete, Delete.validate_ofJson? hobject,
      Delete.validate_ofJson? hv, hsame "delete" (by simp)]
  | upsert =>
    have hread := Upsert.ofJson?_congr hobject hv (hget (by decide))
    rw [bodyVerdict?, bodyVerdict?, Statement.ofBody?, Statement.ofBody?, hread]

theorem bodyVerdict?_updateAssignment (column : String) (f : Json → Json) (hv : v.isObject) :
    bodyVerdict? .update (v.updateMember "set" (Json.updateMember column f)) =
      bodyVerdict? .update v := by
  have hobject : (v.updateMember "set" (Json.updateMember column f)).isObject := by
    rw [Json.isObject_updateMember, hv]
  rw [bodyVerdict?_update, bodyVerdict?_update, Update.validate_ofJson? hobject,
    Update.validate_ofJson? hv]
  simp only [Json.get?_updateMember, String.reduceEq, reduceIte, assignsNothing?_updateMember]

theorem bodyVerdict?_replaceIn (p : Place) (w : Json) (hv : v.isObject) :
    bodyVerdict? p.keyword (p.replaceIn w v) = bodyVerdict? p.keyword v := by
  cases p with
  | filter keyword => exact bodyVerdict?_updateCondition (.inl rfl) w keyword hv
  | having keyword => exact bodyVerdict?_updateCondition (.inr rfl) w keyword hv
  | select p =>
    rw [Place.keyword, bodyVerdict?_select, bodyVerdict?_select]
    exact p.validate_replace w v
  | assignment column => exact bodyVerdict?_updateAssignment column _ hv

end Statements

section Queries

theorem SelectPlace.replace_eq (p : SelectPlace) (w : Json) :
    ∃ key f, p.replace w = Json.updateMember key f := by
  cases p <;> exact ⟨_, _, by rw [SelectPlace.replace]⟩

theorem Place.replaceIn_eq (p : Place) (w : Json) :
    ∃ key f, p.replaceIn w = Json.updateMember key f := by
  cases p with
  | select p => exact p.replace_eq w
  | _ => exact ⟨_, _, by rw [Place.replaceIn]⟩

/-- The verdict on a JSON value: valid, or refused for a reason. -/
def Query.verdict (v : Json) : Except ValidationError Unit :=
  (Query.ofValidJson v).map fun _ => ()

theorem Statement.validate_toQuery (s : Statement) : s.toQuery.validate = s.validate := by
  cases s <;> rfl

theorem Query.ofValidJson_lastWins (members : List (String × Json)) :
    Query.ofValidJson (.object (lastWins members)) = Query.ofValidJson (.object members) := by
  have htop : Query.validateTop (.object (lastWins members)) =
      Query.validateTop (.object members) := by
    have hnode : (Json.object (lastWins members)).node.settle =
        (Json.object members).node.settle :=
      congrArg Node.object (lastWins_of_nodup (nodup_keys_lastWins members))
    rw [Query.validateTop, Query.validateTop, hnode]
  have hread : Query.form.ofJson? (.object (lastWins members)) =
      Query.form.ofJson? (.object members) :=
    congrArg Query.form.ofReading? (Json.reading_lastWins members)
  rw [Query.ofValidJson, Query.ofValidJson, htop, hread]

theorem Query.verdict_lastWins (members : List (String × Json)) :
    Query.verdict (.object (lastWins members)) = Query.verdict (.object members) := by
  rw [Query.verdict, Query.verdict, Query.ofValidJson_lastWins]

/-- A query with one keyword is valid if the statement under it is. -/
theorem Query.ofValidJson_single {k : Keyword} {body : Json} (hbody : body.isObject) :
    Query.ofValidJson (.object [(k.text, body)]) =
      ((Statement.ofBody? k body).map fun s => s.validate.map fun _ => s.toQuery).getD
        (.error .malformed) := by
  have hne : body ≠ .null := by
    rintro rfl
    cases hbody
  have hread := Query.ofJson?_single k hne
  have htop : Query.validateTop (.object [(k.text, body)]) = .ok () := by
    cases body with
    | object members => exact Query.validateTop_of_object rfl
    | _ => cases hbody
  cases hs : Statement.ofBody? k body with
  | none =>
    rw [hs, Option.map_none] at hread
    rw [Query.ofValidJson, htop, hread]
    rfl
  | some s =>
    rw [hs, Option.map_some] at hread
    rw [Query.ofValidJson_of_top_ok htop hread, s.validate_toQuery]
    rfl

/-- The verdict on a query with one keyword is that on the statement under it. -/
theorem Query.verdict_single {k : Keyword} {body : Json} (hbody : body.isObject) :
    Query.verdict (.object [(k.text, body)]) =
      (bodyVerdict? k body).getD (.error .malformed) := by
  rw [Query.verdict, Query.ofValidJson_single hbody, bodyVerdict?]
  cases Statement.ofBody? k body with
  | none => rfl
  | some s =>
    change (s.validate.map fun _ => s.toQuery).map (fun _ => ()) = s.validate
    cases s.validate <;> rfl

/-- Whatever is put at a place of an expression, the verdict stays the same. -/
theorem Query.verdict_replace (p : Place) (w v : Json) :
    Query.verdict (p.replace w v) = Query.verdict v := by
  obtain ⟨key, f, hreplace⟩ := p.replaceIn_eq w
  cases v with
  | object members =>
    have hsettled := lastWins_map
      (fun k x => if k = p.keyword.text then p.replaceIn w x else x) members
    by_cases hlength : (lastWins members).length = 1
    · obtain ⟨⟨key', body⟩, hsingle⟩ := List.length_eq_one_iff.mp hlength
      rw [Place.replace, Json.updateMember, ← Query.verdict_lastWins, hsettled,
        ← Query.verdict_lastWins members, hsingle, List.map_singleton]
      by_cases hkey : key' = p.keyword.text
      · subst hkey
        simp only [if_true]
        by_cases hbody : body.isObject
        · have hbody' : (p.replaceIn w body).isObject := by
            rw [hreplace, Json.isObject_updateMember, hbody]
          rw [Query.verdict_single hbody', Query.verdict_single hbody,
            bodyVerdict?_replaceIn p w hbody]
        · rw [hreplace, Json.updateMember_of_isObject hbody]
      · simp only [if_neg hkey]
    · have hlength' : (lastWins (members.map fun m =>
          (m.1, if m.1 = p.keyword.text then p.replaceIn w m.2 else m.2))).length ≠ 1 := by
        rwa [hsettled, List.length_map]
      rw [Query.verdict, Query.verdict,
        Query.ofValidJson_of_top_error (Query.validateTop_of_length hlength),
        Place.replace, Json.updateMember,
        Query.ofValidJson_of_top_error (Query.validateTop_of_length hlength')]
  | _ => rfl

theorem Query.validate_of_ofValidJson {v : Json} {q : Query} (h : Query.ofValidJson v = .ok q) :
    q.validate = .ok () := by
  obtain ⟨_, -, hread⟩ := Outcome.bind_eq_ok.mp h
  split at hread
  · rename_i q' _
    simp only [Outcome.bind_eq_ok, Outcome.pure_eq_ok] at hread
    obtain ⟨_, hvalid, rfl⟩ := hread
    exact hvalid
  · exact absurd hread Outcome.throw_ne_ok

theorem Compiler.compileValid_ne_validation (c : Compiler) (q : Query) (e : ValidationError) :
    (c.compileValid q).result ≠ .error (.validation e) := by
  unfold compileValid
  dsimp only
  split
  · exact nofun
  · split <;> exact nofun

/-- Compilation refuses a query as not valid exactly if the verdict on it is that refusal. -/
theorem Compiler.compileJson_refused_iff (c : Compiler) (v : Json) (e : ValidationError) :
    (c.compileJson v).result = .error (.validation e) ↔ Query.verdict v = .error e := by
  rw [compileJson, Query.verdict]
  cases h : Query.ofValidJson v with
  | error e' => simp [Except.map]
  | ok q =>
    apply iff_of_false
    · intro hrefused
      have hquery := Outcome.map_eq_error.mp hrefused
      rw [compileQuery, Query.validate_of_ofValidJson h] at hquery
      exact c.compileValid_ne_validation q e hquery
    · intro hverdict
      cases hverdict

/-- What stands at the place of an expression has no influence on validity: with another value there
the query is valid as before or refused for the same reason, also by every compiler. -/
theorem Place.verdict_indifferent (p : Place) (w v : Json) :
    Query.verdict (p.replace w v) = Query.verdict v ∧
      ∀ (c : Compiler) (e : ValidationError),
        (c.compileJson (p.replace w v)).result = .error (.validation e) ↔
          (c.compileJson v).result = .error (.validation e) := by
  have hverdict := Query.verdict_replace p w v
  refine ⟨hverdict, fun c e => ?_⟩
  rw [c.compileJson_refused_iff, c.compileJson_refused_iff, hverdict]

example :
    let v := Json.object [("SELECT", .object [
      ("from", .object [("ref", .array [.text "A"])]), ("where", .null)])]
    (Compiler.standard.compileJson v).result = .ok "SELECT *\nFROM \"A\"" ∧
      (Compiler.standard.compileJson ((Place.filter .select).replace (.text "a = 1") v)).result =
        .error (.lowering .invalidExpressionType) := by
  with_unfolding_all exact ⟨rfl, rfl⟩

end Queries

end QueryNotation
