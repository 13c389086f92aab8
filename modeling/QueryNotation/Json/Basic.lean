import QueryNotation.Number

/-! JSON values with their members in order. An object may hold a key more than once, as a text may
write it; `Json.settle` keeps the last value of each key, at the place of the first. `Json.fold`
computes a result for a value from the results for its parts. -/

namespace QueryNotation

/-- A JSON value. -/
inductive Json where
  | null
  | bool (b : Bool)
  | number (n : Number)
  | text (s : String)
  | array (items : List Json)
  | object (members : List (String × Json))

/-- One layer of a JSON value, with parts of type `α`. -/
inductive Node (α : Type) where
  | null
  | bool (b : Bool)
  | number (n : Number)
  | text (s : String)
  | array (items : List α)
  | object (members : List (String × α))

/-- Replaces the value of `k`, or adds `k` at the end. -/
def setMember (k : String) (v : α) : List (String × α) → List (String × α)
  | [] => [(k, v)]
  | (k', v') :: rest => if k' = k then (k', v) :: rest else (k', v') :: setMember k v rest

/-- Every key once, at the place of its first value and with its last value. -/
def lastWins (members : List (String × α)) : List (String × α) :=
  members.foldl (fun acc (k, v) => setMember k v acc) []

namespace Node

/-- A layer with every part changed by `f`. -/
def map (f : α → β) : Node α → Node β
  | .null => .null
  | .bool b => .bool b
  | .number n => .number n
  | .text s => .text s
  | .array items => .array (items.map f)
  | .object members => .object (members.map fun (k, v) => (k, f v))

/-- A layer in which every key stands once, with its last value. -/
def settle : Node α → Node α
  | .object members => .object (lastWins members)
  | node => node

/-- The value with this layer on top. -/
def toJson : Node Json → Json
  | .null => .null
  | .bool b => .bool b
  | .number n => .number n
  | .text s => .text s
  | .array items => .array items
  | .object members => .object members

end Node

namespace Json

/-- The top layer of a value. -/
def node : Json → Node Json
  | .null => .null
  | .bool b => .bool b
  | .number n => .number n
  | .text s => .text s
  | .array items => .array items
  | .object members => .object members

mutual

/-- The result of `f` on a value, whose parts are the results on the value's parts. -/
def fold (f : Node α → α) : Json → α
  | .null => f .null
  | .bool b => f (.bool b)
  | .number n => f (.number n)
  | .text s => f (.text s)
  | .array items => f (.array (foldItems f items))
  | .object members => f (.object (foldMembers f members))

/-- `Json.fold` on each item. -/
def foldItems (f : Node α → α) : List Json → List α
  | [] => []
  | v :: vs => fold f v :: foldItems f vs

/-- `Json.fold` on each member's value. -/
def foldMembers (f : Node α → α) : List (String × Json) → List (String × α)
  | [] => []
  | (k, v) :: members => (k, fold f v) :: foldMembers f members

end

/-- The value in which, at every depth, each key stands once, with its last value. -/
def settle : Json → Json :=
  fold fun node => node.settle.toJson

@[simp] theorem foldItems_eq_map (f : Node α → α) (items : List Json) :
    foldItems f items = items.map (fold f) := by
  induction items with
  | nil => rfl
  | cons v vs ih => simp [foldItems, ih]

@[simp] theorem foldMembers_eq_map (f : Node α → α) (members : List (String × Json)) :
    foldMembers f members = members.map fun (k, v) => (k, fold f v) := by
  induction members with
  | nil => rfl
  | cons m ms ih => simp [foldMembers, ih]

/-- The result on a value comes from the results on the parts of its top layer. -/
theorem fold_eq (f : Node α → α) (v : Json) : v.fold f = f (v.node.map (fold f)) := by
  cases v <;> simp [fold, node, Node.map]

end Json

/-- A key that occurs is not added again. -/
theorem keys_setMember_of_mem {k : String} {v : α} {members : List (String × α)}
    (h : k ∈ members.map Prod.fst) :
    (setMember k v members).map Prod.fst = members.map Prod.fst := by
  induction members with
  | nil => simp at h
  | cons m ms ih =>
    obtain ⟨k', v'⟩ := m
    by_cases hk : k' = k
    · simp [setMember, hk]
    · have hmem : k ∈ ms.map Prod.fst := by simpa [Ne.symm hk] using h
      simp [setMember, hk, ih hmem]

/-- A key that does not occur is added at the end. -/
theorem setMember_of_notMem {k : String} {v : α} {members : List (String × α)}
    (h : k ∉ members.map Prod.fst) : setMember k v members = members ++ [(k, v)] := by
  induction members with
  | nil => rfl
  | cons m ms ih =>
    obtain ⟨k', v'⟩ := m
    simp only [List.map_cons, List.mem_cons, not_or] at h
    simp [setMember, Ne.symm h.1, ih h.2]

/-- Members with distinct keys stay as they are. -/
theorem lastWins_of_nodup {members : List (String × α)} (h : (members.map Prod.fst).Nodup) :
    lastWins members = members := by
  suffices key : ∀ acc : List (String × α), ((acc ++ members).map Prod.fst).Nodup →
      members.foldl (fun acc (k, v) => setMember k v acc) acc = acc ++ members by
    simpa [lastWins] using key [] (by simpa using h)
  clear h
  induction members with
  | nil => simp
  | cons m ms ih =>
    intro acc hacc
    have hm : m.1 ∉ acc.map Prod.fst := by
      intro hmem
      rw [List.map_append, List.nodup_append] at hacc
      exact hacc.2.2 _ hmem _ (by simp) rfl
    have hacc' : (((acc ++ [m]) ++ ms).map Prod.fst).Nodup := by simpa using hacc
    simpa [setMember_of_notMem hm] using ih (acc ++ [m]) hacc'

end QueryNotation
