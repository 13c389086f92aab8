import QueryNotation.Query.Validity

/-! The members of an object. A key may be repeated, and then its last value counts, which is what
`Json.get?` gives. The reading of an object has each of its keys once, so a record finds under each
of its keys the reading of that value, and a query finds its statement under its only key. -/

namespace QueryNotation

/-- The value of a key, of a repeated one the last. -/
def Json.get? (key : String) : Json → Option Json
  | .object members => members.reverse.lookup key
  | _ => none

section Lookup

theorem lookup_cons_ite (key k : String) (v : α) (members : List (String × α)) :
    ((k, v) :: members).lookup key = if key = k then some v else members.lookup key := by
  rw [List.lookup_cons]
  by_cases h : key = k
  · rw [if_pos h, beq_iff_eq.mpr h]
  · rw [if_neg h, beq_false_of_ne h]

theorem lookup_setMember (key k : String) (v : α) (members : List (String × α)) :
    (setMember k v members).lookup key = if key = k then some v else members.lookup key := by
  induction members with
  | nil => exact lookup_cons_ite key k v []
  | cons m ms ih =>
    obtain ⟨k', v'⟩ := m
    by_cases hk : k' = k
    · subst hk
      by_cases h : key = k'
      · simp [setMember, h]
      · simp [setMember, lookup_cons_ite, h]
    · rw [setMember, if_neg hk, lookup_cons_ite, lookup_cons_ite, ih]
      by_cases h : key = k'
      · subst h
        simp [hk]
      · simp [h]

theorem nodup_keys_setMember {k : String} {v : α} {members : List (String × α)}
    (h : (members.map Prod.fst).Nodup) : ((setMember k v members).map Prod.fst).Nodup := by
  by_cases hk : k ∈ members.map Prod.fst
  · rwa [keys_setMember_of_mem hk]
  · rw [setMember_of_notMem hk, List.map_append, List.nodup_append]
    refine ⟨h, by simp, ?_⟩
    intro a ha b hb hab
    have hb' : b = k := by simpa using hb
    rw [← hb', ← hab] at hk
    exact hk ha

-- Both facts about `lastWins` are about its loop, so they are proved for every list to start from.
theorem lookup_lastWins (key : String) (members : List (String × α)) :
    (lastWins members).lookup key = members.reverse.lookup key := by
  suffices loop : ∀ acc : List (String × α),
      (members.foldl (fun acc m => setMember m.1 m.2 acc) acc).lookup key =
        (members.reverse.lookup key).or (acc.lookup key) by
    exact (loop []).trans Option.or_none
  induction members with
  | nil => simp
  | cons m ms ih =>
    intro acc
    obtain ⟨k, v⟩ := m
    rw [List.foldl_cons, ih, lookup_setMember, List.reverse_cons, List.lookup_append,
      Option.or_assoc, lookup_cons_ite]
    by_cases h : key = k
    · simp [h]
    · simp [h]

theorem nodup_keys_lastWins (members : List (String × α)) :
    ((lastWins members).map Prod.fst).Nodup := by
  suffices loop : ∀ acc : List (String × α), (acc.map Prod.fst).Nodup →
      ((members.foldl (fun acc m => setMember m.1 m.2 acc) acc).map Prod.fst).Nodup by
    exact loop [] (by simp)
  induction members with
  | nil => exact fun acc h => h
  | cons m ms ih => exact fun acc h => ih _ (nodup_keys_setMember h)

theorem setMember_map (g : String → α → β) (k : String) (v : α) (members : List (String × α)) :
    setMember k (g k v) (members.map fun m => (m.1, g m.1 m.2)) =
      (setMember k v members).map fun m => (m.1, g m.1 m.2) := by
  induction members with
  | nil => rfl
  | cons m ms ih =>
    by_cases hk : m.1 = k
    · simp [setMember, hk]
    · simp [setMember, hk, ih]

/-- Repeated keys may be settled before or after the values are changed. -/
theorem lastWins_map (g : String → α → β) (members : List (String × α)) :
    lastWins (members.map fun m => (m.1, g m.1 m.2)) =
      (lastWins members).map fun m => (m.1, g m.1 m.2) := by
  suffices loop : ∀ acc : List (String × α),
      (members.map fun m => (m.1, g m.1 m.2)).foldl (fun acc m => setMember m.1 m.2 acc)
          (acc.map fun m => (m.1, g m.1 m.2)) =
        (members.foldl (fun acc m => setMember m.1 m.2 acc) acc).map fun m => (m.1, g m.1 m.2) by
    exact loop []
  induction members with
  | nil => exact fun acc => rfl
  | cons m ms ih =>
    intro acc
    rw [List.map_cons, List.foldl_cons, List.foldl_cons, setMember_map, ih]

theorem setMember_filter {p : String → Bool} {k : String} (hk : p k) (v : α)
    (members : List (String × α)) :
    setMember k v (members.filter fun m => p m.1) =
      (setMember k v members).filter fun m => p m.1 := by
  induction members with
  | nil => simp [setMember, hk]
  | cons m ms ih =>
    by_cases heq : m.1 = k
    · simp [setMember, heq, hk]
    · by_cases hm : p m.1
      · simp [setMember, heq, hm, ih]
      · simp [setMember, heq, hm, ih]

theorem filter_setMember_of_not {p : String → Bool} {k : String} (hk : ¬ p k) (v : α)
    (members : List (String × α)) :
    (setMember k v members).filter (fun m => p m.1) = members.filter fun m => p m.1 := by
  induction members with
  | nil => simp [setMember, hk]
  | cons m ms ih =>
    by_cases heq : m.1 = k
    · simp [setMember, heq, hk]
    · simp [setMember, heq, List.filter_cons, ih]

/-- Repeated keys may be settled before or after some of the keys are left out. -/
theorem lastWins_filter (p : String → Bool) (members : List (String × α)) :
    lastWins (members.filter fun m => p m.1) = (lastWins members).filter fun m => p m.1 := by
  suffices loop : ∀ acc : List (String × α),
      (members.filter fun m => p m.1).foldl (fun acc m => setMember m.1 m.2 acc)
          (acc.filter fun m => p m.1) =
        (members.foldl (fun acc m => setMember m.1 m.2 acc) acc).filter fun m => p m.1 by
    exact loop []
  induction members with
  | nil => exact fun acc => rfl
  | cons m ms ih =>
    intro acc
    by_cases hm : p m.1
    · rw [List.filter_cons, if_pos hm, List.foldl_cons, List.foldl_cons, setMember_filter hm, ih]
    · rw [List.filter_cons, if_neg hm, List.foldl_cons, ← ih, filter_setMember_of_not hm]

theorem lookup_isSome_iff_mem {key : String} {members : List (String × α)} :
    (members.lookup key).isSome ↔ key ∈ members.map Prod.fst := by
  simp only [List.lookup_isSome_iff, List.mem_map, beq_iff_eq, eq_comm (a := key)]

theorem lookup_map (f : α → β) (key : String) (members : List (String × α)) :
    (members.map fun (k, v) => (k, f v)).lookup key = (members.lookup key).map f := by
  induction members with
  | nil => rfl
  | cons m ms ih =>
    obtain ⟨k, v⟩ := m
    rw [List.map_cons, lookup_cons_ite, lookup_cons_ite, ih]
    by_cases h : key = k
    · simp [h]
    · simp [h]

theorem filter_key_of_notMem {key : String} {members : List (String × α)}
    (h : key ∉ members.map Prod.fst) : members.filter (·.1 = key) = [] := by
  rw [List.filter_eq_nil_iff]
  intro m hm hkey
  exact h (List.mem_map.mpr ⟨m, hm, of_decide_eq_true hkey⟩)

theorem member?_of_nodup {members : List (String × α)} (h : (members.map Prod.fst).Nodup)
    (key : String) : member? key members = some (members.lookup key) := by
  induction members with
  | nil => rfl
  | cons m ms ih =>
    obtain ⟨k, v⟩ := m
    rw [List.map_cons, List.nodup_cons] at h
    by_cases hk : k = key
    · subst hk
      simp [member?, filter_key_of_notMem h.1]
    · have hk' : ¬ key = k := fun heq => hk heq.symm
      have hrest := ih h.2
      simp only [member?, List.filter_cons, hk, decide_false, Bool.false_eq_true,
        if_false] at hrest ⊢
      rw [hrest, lookup_cons_ite, if_neg hk']

/-- Once repeated keys are settled, every key has at most one value. -/
theorem member?_lastWins (key : String) (members : List (String × α)) :
    member? key (lastWins members) = some (members.reverse.lookup key) := by
  rw [member?_of_nodup (nodup_keys_lastWins members), lookup_lastWins]

end Lookup

section Reading

theorem Json.node_reading (v : Json) : v.reading.node = (v.node.map Json.reading).settle := by
  rw [Json.reading, Json.fold_eq]
  rfl

theorem Json.member?_reading (key : String) (members : List (String × Json)) :
    member? key (lastWins (members.map fun (k, v) => (k, v.reading))) =
      some (((Json.object members).get? key).map Json.reading) := by
  rw [member?_lastWins, ← List.map_reverse, lookup_map]
  rfl

/-- An object always is a record, each of whose members is the reading of a key's value. -/
theorem Json.record?_reading (keys : List String) (least : Nat) (members : List (String × Json)) :
    (Json.object members).reading.node.record? keys least =
      some (keys.map fun key => ((Json.object members).get? key).map Json.reading) := by
  rw [Json.node_reading]
  change keys.mapM (member? · (lastWins (members.map fun (k, v) => (k, v.reading)))) = _
  induction keys with
  | nil => rfl
  | cons key keys ih =>
    rw [List.mapM_cons, ih, Json.member?_reading]
    rfl

/-- Only the last value of a repeated key is read. -/
theorem Json.reading_lastWins (members : List (String × Json)) :
    (Json.object (lastWins members)).reading = (Json.object members).reading := by
  have hnode : ((Json.object (lastWins members)).node.map Json.reading).settle =
      ((Json.object members).node.map Json.reading).settle := by
    change Node.object (lastWins ((lastWins members).map fun m => (m.1, m.2.reading))) =
      .object (lastWins (members.map fun m => (m.1, m.2.reading)))
    rw [lastWins_map fun _ => Json.reading, lastWins_map fun _ => Json.reading,
      lastWins_of_nodup (nodup_keys_lastWins members)]
  rw [Json.reading, Json.fold_eq, Json.fold_eq]
  exact congrArg (fun node => Reading.ofNode node node) hnode

theorem Json.source_reading (v : Json) : v.reading.source = Source.ofNode v.reading.node := by
  rw [Json.reading, Json.fold_eq]
  rfl

theorem Json.expr_reading (v : Json) :
    v.reading.expr = Expr.ofNode v.reading.node v.reading.node := by
  rw [Json.reading, Json.fold_eq]
  rfl

theorem Json.column_reading (v : Json) : v.reading.column = Column.ofNode v.reading.node := by
  rw [Json.reading, Json.fold_eq]
  rfl

theorem Json.select_reading (v : Json) : v.reading.select = Select.ofNode? v.reading.node := by
  rw [Json.reading, Json.fold_eq]
  rfl

theorem Json.order_reading (v : Json) :
    v.reading.order = Order.ofNode? v.reading.node v.reading.node := by
  rw [Json.reading, Json.fold_eq]
  rfl

theorem Json.limit_reading (v : Json) : v.reading.limit = Limit.ofNode? v.reading.node := by
  rw [Json.reading, Json.fold_eq]
  rfl

theorem Json.isNull_reading {v : Json} : v.reading.isNull ↔ v = .null := by
  rw [Reading.isNull, Json.node_reading]
  cases v <;> simp [Json.node, Node.map, Node.settle]

/-- A member that may be missing is missing if it is null, and otherwise has to fit. -/
theorem optional?_reading {f : Reading → Option α} {o : Option Json} {a : Option α}
    (h : optional? f (o.map Json.reading) = some a) :
    (a = none ∧ ∀ v ∈ o, v = .null) ∨
      ∃ v b, o = some v ∧ v ≠ .null ∧ f v.reading = some b ∧ a = some b := by
  cases o with
  | none =>
    cases h
    exact .inl ⟨rfl, by simp⟩
  | some v =>
    rw [Option.map_some, optional?] at h
    split at h
    · rename_i hnull
      cases h
      exact .inl ⟨rfl, by simpa using Json.isNull_reading.mp hnull⟩
    · rename_i hnull
      obtain ⟨b, hb, rfl⟩ := Option.map_eq_some_iff.mp h
      exact .inr ⟨v, b, rfl, fun hv => hnull (Json.isNull_reading.mpr hv), hb, rfl⟩

theorem list?_reading {f : Reading → Option α} {v : Json} {l : List α}
    (h : v.reading.list? f = some l) :
    ∃ items, v = .array items ∧ items.mapM (fun x => f x.reading) = some l := by
  rw [Reading.list?, Json.node_reading] at h
  cases v with
  | array items =>
    change (items.map Json.reading).mapM f = some l at h
    rw [List.mapM_map] at h
    exact ⟨items, rfl, h⟩
  | _ => cases h

theorem optional?_some (g : Reading → α) (o : Option Reading) :
    optional? (fun r => some (g r)) o = some ((o.filter (!·.isNull)).map g) := by
  cases o with
  | none => rfl
  | some r => cases h : r.isNull <;> simp [optional?, Option.filter, h]

theorem Json.list?_array (f : Reading → Option α) (items : List Json) :
    (Json.array items).reading.list? f = items.mapM fun v => f v.reading := by
  rw [Reading.list?, Json.node_reading]
  exact List.mapM_map

theorem Json.fields?_object (g : Reading → α) (members : List (String × Json)) :
    (Json.object members).reading.fields? (fun r => some (g r)) =
      some ((lastWins members).map fun m => (m.1, g m.2.reading)) := by
  rw [Reading.fields?, Json.node_reading]
  change (lastWins (members.map fun m => (m.1, m.2.reading))).mapM
    (fun m => pure (m.1, g m.2)) = _
  rw [lastWins_map fun _ => Json.reading, List.mapM_map]
  exact List.mapM_pure

end Reading

section Statements

/-- The statement that a body under its keyword writes. -/
def Statement.ofBody? (keyword : Keyword) (body : Json) : Option Statement :=
  match keyword with
  | .select => (Select.form.ofJson? body).map .select
  | .insert => (Insert.form.ofJson? body).map .insert
  | .update => (Update.form.ofJson? body).map .update
  | .delete => (Delete.form.ofJson? body).map .delete
  | .upsert => (Upsert.form.ofJson? body).map .upsert

theorem Keyword.text_inj {k k' : Keyword} (h : k.text = k'.text) : k = k' := by
  cases k <;> cases k' <;> first | rfl | exact absurd h (by decide)

/-- Under a keyword that is the only key of an object stands the body of its statement. -/
theorem Keyword.member?_reading_single (keyword key : Keyword) (body : Json) :
    member? key.text (lastWins [(keyword.text, body.reading)]) =
      some (if key = keyword then some body.reading else none) := by
  rw [member?_lastWins, List.reverse_singleton, lookup_cons_ite]
  by_cases h : key = keyword
  · rw [if_pos h, if_pos (congrArg Keyword.text h)]
  · rw [if_neg h, if_neg fun htext => h (Keyword.text_inj htext)]
    rfl

theorem optional?_reading_some {f : Reading → Option α} {v : Json} (hv : v ≠ .null) :
    optional? f (some v.reading) = (f v.reading).map some := by
  rw [optional?, if_neg fun hnull => hv (Json.isNull_reading.mp hnull)]

theorem Keyword.ofText?_text (keyword : Keyword) : Keyword.ofText? keyword.text = some keyword := by
  cases keyword <;> rfl

/-- The query that holds one statement and no other key. -/
def Statement.toQuery : Statement → Query
  | .select s => ⟨some s, none, none, none, none, []⟩
  | .insert i => ⟨none, some i, none, none, none, []⟩
  | .update u => ⟨none, none, some u, none, none, []⟩
  | .delete d => ⟨none, none, none, some d, none, []⟩
  | .upsert u => ⟨none, none, none, none, some u, []⟩

theorem Statement.statement?_toQuery (s : Statement) : s.toQuery.statement? = some s := by
  cases s <;> rfl

theorem Query.otherKeys_keyword (keyword : Keyword) : Query.otherKeys [keyword.text] = [] := by
  simp [Query.otherKeys, Keyword.ofText?_text]

/-- An object with one keyword writes a query exactly if the body under it writes a statement. -/
theorem Query.ofJson?_single (keyword : Keyword) {body : Json} (hbody : body ≠ .null) :
    Query.form.ofJson? (.object [(keyword.text, body)]) =
      (Statement.ofBody? keyword body).map Statement.toQuery := by
  have hnone : ∀ {α : Type} {f : Reading → Option α}, optional? f none = some none := rfl
  have hothers : Query.otherKeys ((lastWins [(keyword.text, body.reading)]).map Prod.fst) = [] :=
    Query.otherKeys_keyword keyword
  change Query.ofReading? (Json.object [(keyword.text, body)]).reading = _
  rw [Query.ofReading?, Json.node_reading]
  simp only [Json.node, Node.map, Node.settle, List.map_cons, List.map_nil,
    Keyword.member?_reading_single, Option.bind_eq_bind, Option.bind_some, hothers]
  cases keyword <;>
    simp only [reduceCtorEq, if_true, if_false, hnone, optional?_reading_some hbody,
      Option.bind_some, Option.bind_map, Statement.ofBody?, Option.map_map]
  all_goals exact Option.map_eq_bind.symm

/-- A query with one key holds the statement that the body under that key writes. -/
theorem Query.statement?_of_single {keyword : Keyword} {body : Json} (hbody : body ≠ .null)
    {q : Query} (h : Query.form.ofJson? (.object [(keyword.text, body)]) = some q) :
    ∃ statement, Statement.ofBody? keyword body = some statement ∧
      q.statement? = some statement := by
  rw [Query.ofJson?_single keyword hbody] at h
  obtain ⟨s, hs, rfl⟩ := Option.map_eq_some_iff.mp h
  exact ⟨s, hs, s.statement?_toQuery⟩

end Statements

end QueryNotation
