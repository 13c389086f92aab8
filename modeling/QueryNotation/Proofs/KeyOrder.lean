import QueryNotation.Proofs.Entries
import QueryNotation.Proofs.Observations

/-! The order of keys and keys that the notation does not know make no difference to a compiler. The
statements that are read before and after an edit differ at most inside the nested fields of
entries, which are dropped or rejected unseen. -/

namespace QueryNotation

section Entries

/-- What lowering sees of an entry: its fields and the scalars among their values. -/
def Entry.outline (e : Entry) : List (String × Option Scalar) := e.map fun m => (m.1, m.2.scalar?)

/-- Payloads that differ at most inside the nested fields of their entries. -/
structure Payload.Alike (p p' : Payload) : Prop where
  columns : p'.columns = p.columns
  entries : p'.entries.map (List.map Entry.outline) = p.entries.map (List.map Entry.outline)
  values : p'.values = p.values
  rows : p'.rows = p.rows

theorem Entry.scalars_eq_outline (e : Entry) :
    e.scalars = e.outline.filterMap fun m => m.2.map (m.1, ·) := by
  rw [Entry.outline, List.filterMap_map]
  rfl

theorem Entry.nested_eq_outline (e : Entry) :
    e.nested = e.outline.filterMap fun m => if m.2.isNone then some m.1 else none := by
  rw [Entry.outline, List.filterMap_map]
  rfl

namespace Payload.Alike

variable {p p' : Payload} (h : p.Alike p')

include h

-- Whatever is a function of the outlines of the entries is the same for both payloads.
theorem map_entries {f : Entry → α} {g : List (String × Option Scalar) → α}
    (hf : ∀ e, f e = g e.outline) : p'.entries.map (List.map f) = p.entries.map (List.map f) := by
  have hfun : List.map f = List.map g ∘ List.map Entry.outline := by
    funext entries
    rw [Function.comp_apply, List.map_map]
    exact List.map_congr_left fun e _ => hf e
  rw [hfun, ← Option.map_map, ← Option.map_map, h.entries]

theorem nestedFields : p'.nestedFields = p.nestedFields := by
  have hflat : ∀ p : Payload,
      p.nestedFields = ((p.entries.map (List.map Entry.nested)).getD []).flatten := by
    rintro ⟨_, _ | entries, _, _⟩
    · rfl
    · exact List.flatMap_def
  rw [hflat, hflat, h.map_entries Entry.nested_eq_outline]

theorem toInsert (into : Sql.Ref) : p'.toInsert into = p.toInsert into := by
  rw [Payload.toInsert, Payload.toInsert, h.map_entries Entry.scalars_eq_outline]
  simp only [assemble, h.columns, h.values, h.rows]

theorem isEmpty : p'.isEmpty = p.isEmpty := by
  have hentries : ∀ p : Payload, (p.entries.getD []).isEmpty =
      ((p.entries.map (List.map Entry.outline)).getD []).isEmpty := by
    rintro ⟨_, _ | entries, _, _⟩
    · rfl
    · exact List.isEmpty_map.symm
  rw [Payload.isEmpty, Payload.isEmpty, hentries, hentries p, h.entries, h.values, h.rows]

theorem lowerInto (policy : NestedPolicy) (keyword : Keyword) (target : Option Ref) :
    p'.lowerInto policy keyword target = p.lowerInto policy keyword target := by
  simp only [Payload.lowerInto, Payload.lower_eq, h.nestedFields, h.toInsert]

end Payload.Alike

end Entries

section Statements

theorem rel_bind {R : α → α → Prop} {T : β → β → Prop} {x x' : Option α} (h : Option.Rel R x x')
    {F F' : α → Option β} (hF : ∀ a a', R a a' → Option.Rel T (F a) (F' a')) :
    Option.Rel T (x.bind F) (x'.bind F') := by
  cases h with
  | none => exact .none
  | some h => exact hF _ _ h

theorem rel_refl (x : Option α) : Option.Rel (fun a a' => a' = a) x x := by
  cases x with
  | none => exact .none
  | some a => exact .some rfl

theorem rel_map {T : β → β → Prop} {f : α → β} {x x' : Option α}
    (h : Option.Rel (fun a a' => T (f a) (f a')) x x') : Option.Rel T (x.map f) (x'.map f) := by
  cases h with
  | none => exact .none
  | some h => exact .some h

theorem rel_of_map_eq {g : α → β} {x x' : Option α} (h : x'.map g = x.map g) :
    Option.Rel (fun a a' => g a' = g a) x x' := by
  cases x with
  | none =>
    rw [Option.map_none, Option.map_eq_none_iff] at h
    rw [h]
    exact .none
  | some a =>
    obtain ⟨a', rfl, ha⟩ := Option.map_eq_some_iff.mp h
    exact .some ha

theorem optional?_map (g : α → β) (f : Reading → Option α) (o : Option Reading) :
    (optional? f o).map (Option.map g) = optional? (fun r => (f r).map g) o := by
  cases o with
  | none => rfl
  | some r =>
    rw [optional?, optional?]
    split
    · rfl
    · rw [Option.map_map, Option.map_map]
      rfl

theorem Reading.list?_map (g : α → β) (f : Reading → Option α) (r : Reading) :
    (r.list? f).map (List.map g) = r.list? fun r => (f r).map g := by
  rw [Reading.list?, Reading.list?]
  split
  · rename_i items hnode
    clear hnode
    induction items with
    | nil => rfl
    | cons item items ih =>
      rw [List.mapM_cons, List.mapM_cons, ← ih]
      cases f item with
      | none => rfl
      | some a => cases items.mapM f <;> rfl
  · rfl

theorem Reading.fields?_of_object {r : Reading} {members : List (String × Reading)}
    (h : r.node = .object members) (g : Reading → α) :
    r.fields? (fun w => some (g w)) = some (members.map fun m => (m.1, g m.2)) := by
  rw [Reading.fields?, h]
  exact List.mapM_pure

/-- The outlines of the entries are read from the scalars among their values alone. -/
theorem optional?_outline (o : Option Reading) :
    (optional? (Reading.list? Entry.ofReading?) o).map (Option.map (List.map Entry.outline)) =
      optional? (Reading.list? fun r => r.fields? fun w => some w.value.scalar?) o := by
  have hentry : ∀ r, (Entry.ofReading? r).map Entry.outline =
      r.fields? fun w => some w.value.scalar? := by
    intro r
    cases hnode : r.node with
    | object members =>
      rw [Entry.ofReading?, Reading.fields?_of_object hnode, Reading.fields?_of_object hnode,
        Option.map_some, Entry.outline, List.map_map]
      rfl
    | _ =>
      rw [Entry.ofReading?, Reading.fields?, Reading.fields?, hnode]
      rfl
  simp only [optional?_map, Reading.list?_map, hentry]

variable {v v' : Json} {k : Keyword}

namespace Json.Close

/-- The payload of an insert or upsert. -/
theorem payload {members members' : List (String × Json)}
    (h : Close Role.Same (.body k) (.object members) (.object members'))
    (hk : Role.bodyMembers k = Role.bodyMembers .insert) :
    Option.Rel Payload.Alike
      (Payload.ofMembers? (lastWins (members.map fun m => (m.1, m.2.reading))))
      (Payload.ofMembers? (lastWins (members'.map fun m => (m.1, m.2.reading)))) := by
  have hget : ∀ key ∈ knownKeys, Option.Rel ((Role.body .insert).member key).Same
      ((Json.object members).get? key) ((Json.object members').get? key) := by
    intro key hkey
    have hrole : (Role.body .insert).member key = (Role.body k).member key := by
      rw [Role.member, Role.member, hk]
    rw [hrole]
    exact h.get? key (.inl hkey)
  have hcolumns : Option.Rel (Seen none) _ _ :=
    rel_imp (hget "columns" (by decide)) fun _ _ hs => hs.plain
  have hentries : Option.Rel (Seen (some .entries)) _ _ := hget "entries" (by decide)
  have hvalues : Option.Rel (Seen (some .rows)) _ _ := hget "values" (by decide)
  have hrows : Option.Rel (Seen (some .rows)) _ _ := hget "rows" (by decide)
  have hcells : ∀ w w', Role.rows.Same w w' →
      Cell.rowsOfReading? w'.reading = Cell.rowsOfReading? w.reading :=
    fun w w' hs => hs.list _ fun _ _ hrow => hrow.list _ fun _ _ hpart => hpart.cell
  have hcolumns' := optional?_same (Reading.list? Reading.text?) hcolumns fun _ _ hs => hs.texts
  have hvalues' := optional?_same Cell.rowsOfReading? hvalues hcells
  have hrows' := optional?_same Cell.rowsOfReading? hrows hcells
  have hentries' := optional?_same
    (Reading.list? fun r => r.fields? fun w => some w.value.scalar?) hentries
    fun _ _ hs => hs.list _ fun _ _ hentry => hentry.fields _ fun w w' hpart => by
      rw [Json.scalar?_value, Json.scalar?_value, hpart.scalar]
  rw [← optional?_outline, ← optional?_outline] at hentries'
  simp only [Payload.ofMembers?, Json.member?_reading, Option.bind_eq_bind, Option.bind_some,
    hcolumns', hvalues', hrows']
  refine rel_bind (rel_refl _) fun columns _ hcolumn => rel_bind (rel_of_map_eq hentries')
    fun entries entries' hentry => ?_
  refine rel_bind (rel_refl _) fun values _ hvalue => rel_bind (rel_refl _) fun rows _ hrow => ?_
  exact .some ⟨hcolumn, hentry, hvalue, hrow⟩

theorem insert (h : Close Role.Same (.body .insert) v v') (hv : v.isObject) :
    Option.Rel (fun a a' => (Statement.insert a).Alike (.insert a')) (Insert.form.ofJson? v)
      (Insert.form.ofJson? v') := by
  have hinto : Option.Rel (Seen (some .part)) _ _ := h.get? "into" (.inl (by decide))
  have hlabel : Option.Rel (Seen none) _ _ :=
    rel_imp (h.get? "as" (.inl (by decide))) fun _ _ hs => hs.plain
  have hinto' := optional?_same Ref.form.ofReading? hinto fun _ _ hs => hs.ref
  have hlabel' := optional?_same Reading.text? hlabel fun _ _ hs => hs.text
  cases h with
  | array => cases hv
  | @object members members' _ hkeys hadded horder hmember =>
    have hpayload := payload (.object hkeys hadded horder hmember) rfl
    change Option.Rel _ (Insert.ofReading? (Json.object members).reading)
      (Insert.ofReading? (Json.object members').reading)
    rw [Insert.ofReading?, Insert.ofReading?, Json.node_reading, Json.node_reading]
    simp only [Json.node, Node.map, Node.settle, Json.member?_reading, Option.bind_eq_bind,
      Option.bind_some, hinto', hlabel']
    refine rel_bind (rel_refl _) fun into _ hsame => rel_bind hpayload fun p p' halike =>
      rel_bind (rel_refl _) fun label _ _ => .some ?_
    subst hsame
    refine ⟨rfl, ?_, ?_⟩
    · rw [Statement.validate, Statement.validate, Insert.validate, Insert.validate, halike.isEmpty]
    · intro policy n
      rw [Statement.lower, Statement.lower, halike.lowerInto]

theorem upsert (h : Close Role.Same (.body .upsert) v v') (hv : v.isObject) :
    Option.Rel (fun a a' => (Statement.upsert a).Alike (.upsert a')) (Upsert.form.ofJson? v)
      (Upsert.form.ofJson? v') := by
  have hupsert : Option.Rel (Seen (some .part)) _ _ := h.get? "upsert" (.inl (by decide))
  have hinto : Option.Rel (Seen (some .part)) _ _ := h.get? "into" (.inl (by decide))
  have hupsert' := optional?_same Ref.form.ofReading? hupsert fun _ _ hs => hs.ref
  have hinto' := optional?_same Ref.form.ofReading? hinto fun _ _ hs => hs.ref
  cases h with
  | array => cases hv
  | @object members members' _ hkeys hadded horder hmember =>
    have hpayload := payload (.object hkeys hadded horder hmember) rfl
    change Option.Rel _ (Upsert.ofReading? (Json.object members).reading)
      (Upsert.ofReading? (Json.object members').reading)
    rw [Upsert.ofReading?, Upsert.ofReading?, Json.node_reading, Json.node_reading]
    simp only [Json.node, Node.map, Node.settle, Json.member?_reading, Option.bind_eq_bind,
      Option.bind_some, hupsert', hinto']
    refine rel_bind (rel_refl _) fun target _ hsame => rel_bind (rel_refl _) fun into _ hsame' =>
      rel_bind hpayload fun p p' halike => .some ?_
    subst hsame hsame'
    refine ⟨rfl, ?_, ?_⟩
    · rw [Statement.validate, Statement.validate, Upsert.validate, Upsert.validate, halike.isEmpty]
      rfl
    · intro policy n
      rw [Statement.lower, Statement.lower, halike.lowerInto]
      rfl

theorem update (h : Close Role.Same (.body .update) v v') (hv : v.isObject) :
    Update.form.ofJson? v' = Update.form.ofJson? v := by
  apply h.bind_record?_object hv [some .part, some .fields, some .part] (by decide)
  rintro _ _ (_ | ⟨htarget, _ | ⟨hset, _ | ⟨hfilter, _ | _⟩⟩⟩)
  have htarget' := optional?_same Ref.form.ofReading? htarget fun _ _ hs => hs.ref
  have hset' := optional?_same (Reading.fields? fun r => some r.expr) hset
    fun _ _ hs => hs.fields _ fun _ _ hpart => hpart.expr
  have hfilter' := optional?_same (fun r => some r.expr) hfilter fun _ _ hs => congrArg some hs.expr
  simp only [List.map_cons, List.map_nil, htarget', hset', hfilter']

theorem delete (h : Close Role.Same (.body .delete) v v') (hv : v.isObject) :
    Delete.form.ofJson? v' = Delete.form.ofJson? v := by
  apply h.bind_record?_object hv [some .part, some .part] (by decide)
  rintro _ _ (_ | ⟨htarget, _ | ⟨hfilter, _ | _⟩⟩)
  have htarget' := optional?_same Ref.form.ofReading? htarget fun _ _ hs => hs.ref
  have hfilter' := optional?_same (fun r => some r.expr) hfilter fun _ _ hs => congrArg some hs.expr
  simp only [List.map_cons, List.map_nil, htarget', hfilter']

/-- The members of a select have the roles that they have in a nested select. -/
theorem selectBody (h : Close Role.Same (.body .select) v v') (hv : v.isObject) :
    Select.form.ofJson? v' = Select.form.ofJson? v := by
  cases h with
  | array => cases hv
  | object hkeys hadded horder hmember =>
    have hpart : Close Role.Same .part _ _ := .object hkeys
      (fun key hin => ⟨rfl, (hadded key hin).2⟩) (fun hrole => by cases hrole) hmember
    exact hpart.part.select

theorem sameBody (h : Close Role.Same (.body k) v v') : SameBody k v v' := by
  refine ⟨h.plain, h.isObject, ?_⟩
  intro hv
  have hsame : ∀ {α : Type} {x x' : Option α} {f : α → Statement}, x' = x →
      Option.Rel Statement.Alike (x.map f) (x'.map f) := by
    intro α x x' f hx
    subst hx
    exact rel_map (rel_imp (rel_refl x') fun a a' ha => ha ▸ .refl _)
  cases k with
  | select => exact hsame (h.selectBody hv)
  | insert => exact rel_map (h.insert hv)
  | update => exact hsame (h.update hv)
  | delete => exact hsame (h.delete hv)
  | upsert => exact rel_map (h.upsert hv)

end Json.Close

end Statements

section Queries

namespace Compiler

variable (c : Compiler)

theorem compileQuery_of_alike {s s' : Statement} (h : s.Alike s') :
    c.compileQuery s'.toQuery = c.compileQuery s.toQuery := by
  have hvalid : c.compileValid s'.toQuery = c.compileValid s.toQuery := by
    simp only [compileValid, Query.lower, Statement.statement?_toQuery, Option.map_some, h.keyword,
      h.lower]
  rw [compileQuery, compileQuery, s'.validate_toQuery, s.validate_toQuery, h.validate, hvalid]

theorem compileJson_congr {v v' : Json} (h : Query.ofValidJson v' = Query.ofValidJson v) :
    c.compileJson v' = c.compileJson v := by
  rw [compileJson, compileJson, h]

/-- A query is compiled like another one with the same keyword if their statements are alike. -/
theorem compileJson_of_alike {k : Keyword} {body body' : Json} (hbody : body.isObject)
    (hbody' : body'.isObject)
    (h : Option.Rel Statement.Alike (Statement.ofBody? k body) (Statement.ofBody? k body')) :
    c.compileJson (.object [(k.text, body')]) = c.compileJson (.object [(k.text, body)]) := by
  rw [compileJson, compileJson, Query.ofValidJson_single hbody, Query.ofValidJson_single hbody']
  revert h
  generalize Statement.ofBody? k body = s
  generalize Statement.ofBody? k body' = s'
  intro h
  cases h with
  | none => rfl
  | @some s s' h =>
    simp only [Option.map_some, Option.getD_some, h.validate]
    cases s.validate with
    | error e => rfl
    | ok => exact congrArg (Logged.map Compiled.sql) (c.compileQuery_of_alike h)

end Compiler

theorem Query.validateTop_of_not_isObject {members : List (String × Json)} {k : Keyword}
    {body : Json} (h : lastWins members = [(k.text, body)]) (hbody : body.isObject = false) :
    Query.validateTop (.object members) = .error (.bodyNotAnObject k) := by
  have hnode : (Json.object members).node.settle = .object [(k.text, body)] :=
    congrArg Node.object h
  simp only [Query.validateTop, hnode, k.ofText?_text]
  cases body with
  | object => cases hbody
  | _ => rfl

/-- Objects with the same keyword as their only key are compiled alike if what stands under it is
the same for the readers of that statement. -/
theorem Compiler.compileJson_of_sameBody (c : Compiler) {k : Keyword} {body body' : Json}
    {members members' : List (String × Json)} (hsingle : lastWins members = [(k.text, body)])
    (hsingle' : lastWins members' = [(k.text, body')]) (h : SameBody k body body') :
    c.compileJson (.object members') = c.compileJson (.object members) := by
  have hsettled : ∀ l : List (String × Json),
      c.compileJson (.object (lastWins l)) = c.compileJson (.object l) :=
    fun l => c.compileJson_congr (Query.ofValidJson_lastWins l)
  have hobject := h.isObject
  cases hbody : body.isObject with
  | true =>
    rw [hbody] at hobject
    rw [← hsettled members, ← hsettled members', hsingle, hsingle']
    exact c.compileJson_of_alike hbody hobject (h.statement hbody)
  | false =>
    rw [hbody] at hobject
    apply c.compileJson_congr
    rw [Query.ofValidJson_of_top_error (Query.validateTop_of_not_isObject hsingle hbody),
      Query.ofValidJson_of_top_error (Query.validateTop_of_not_isObject hsingle' hobject)]

variable {v v' : Json}

namespace Json.Close

theorem compiled (h : Close Role.Same .query v v') (c : Compiler) :
    c.compileJson v' = c.compileJson v := by
  have hperm := h.keys_perm rfl
  have hfound : ∀ key, Option.Rel (Role.query.member key).Same (v.get? key) (v'.get? key) :=
    fun key => h.get? key (.inr rfl)
  cases h with
  | array => rfl
  | @object members members' =>
    by_cases hlength : (Json.object members).keys.length = 1
    · obtain ⟨key, hkeys⟩ := List.length_eq_one_iff.mp hlength
      rw [hkeys, List.perm_singleton] at hperm
      obtain ⟨body, hget, hsingle⟩ := lastWins_of_keys hkeys
      obtain ⟨body', hget', hsingle'⟩ := lastWins_of_keys hperm
      have hbody := hfound key
      rw [hget, hget'] at hbody
      cases hbody with
      | some hsame =>
        cases hk : Keyword.ofText? key with
        | none =>
          apply c.compileJson_congr
          rw [Query.ofValidJson_of_top_error (Query.validateTop_of_unknown hsingle hk),
            Query.ofValidJson_of_top_error (Query.validateTop_of_unknown hsingle' hk)]
        | some k =>
          rw [Role.member, hk] at hsame
          rw [Keyword.ofText?_eq_some_iff] at hk
          subst hk
          exact c.compileJson_of_sameBody hsingle hsingle' hsame
    · have hlength' : (Json.object members').keys.length ≠ 1 := by rwa [hperm.length_eq]
      rw [keys, List.length_map] at hlength hlength'
      apply c.compileJson_congr
      rw [Query.ofValidJson_of_top_error (Query.validateTop_of_length hlength),
        Query.ofValidJson_of_top_error (Query.validateTop_of_length hlength')]

/-- What the readers of a role see of a value comes from what is seen of its parts. -/
theorem same {role : Role} (h : Close Role.Same role v v') : role.Same v v' := by
  cases role with
  | query => exact ⟨h.plain, h.compiled⟩
  | body k => exact h.sameBody
  | part => exact h.part
  | parts => exact sameItems .part (fun _ _ => rfl) h
  | rows => exact sameItems .parts (fun _ _ => rfl) h
  | word => exact h.sameWord
  | entries => exact sameItems .fields (fun _ _ => rfl) h
  | fields => exact h.sameFields

end Json.Close

theorem Json.Edit.same {role : Role} (h : Json.Edit role v v') : role.Same v v' :=
  h.of_close Role.Same.refl fun _ _ _ hclose => hclose.same

/-- However often the keys of objects are put in another order or unknown keys are added, at any
depth, a compiler gives the same result and reports the same events. -/
theorem Json.Edits.compileJson_eq (h : Json.Edits v v') (c : Compiler) :
    c.compileJson v' = c.compileJson v := by
  induction h with
  | refl => rfl
  | step _ hlast ih => rw [hlast.same.compiled c, ih]

/-- The source of a select and the order of its rows. -/
def orderedSelect : Json :=
  .object [("SELECT", .object [
    ("from", .object [("ref", .array [.text "users"])]),
    ("orderBy", .array [.object [("ref", .array [.text "name"]), ("sort", .text "desc")]])])]

/-- The same select, its clauses and the keys of its order turned round, with a note on its
source. -/
def shuffledSelect : Json :=
  .object [("SELECT", .object [
    ("orderBy", .array [.object [("sort", .text "desc"), ("ref", .array [.text "name"])]]),
    ("from", .object [("ref", .array [.text "users"]), ("note", .bool true)])])]

theorem shuffledSelect_compiled :
    Json.Edits orderedSelect shuffledSelect ∧
      Compiler.standard.compileJson shuffledSelect =
        Compiler.standard.compileJson orderedSelect ∧
      (Compiler.standard.compileJson shuffledSelect).result =
        .ok "SELECT *\nFROM \"users\"\nORDER BY \"name\" DESC" := by
  have hclauses : ∀ source orders, Json.Edit (.body .select)
      (.object [("from", source), ("orderBy", orders)])
      (.object [("orderBy", orders), ("from", source)]) :=
    fun _ _ => .permute (by decide) (by simp) (.swap _ _ _)
  have hnote : Json.Edit .part (.object [("ref", .array [.text "users"])])
      (.object [("ref", .array [.text "users"]), ("note", .bool true)]) :=
    .extend (.bool true) rfl (by decide) (by decide)
  have horder : Json.Edit .part (.object [("ref", .array [.text "name"]), ("sort", .text "desc")])
      (.object [("sort", .text "desc"), ("ref", .array [.text "name"])]) :=
    .permute (by decide) (by simp) (.swap _ _ _)
  have hedits : Json.Edits orderedSelect shuffledSelect :=
    (((Json.Edits.refl _).step (.member [] "SELECT" [] (hclauses _ _))).step
      (.member [] "SELECT" [] (.member [_] "from" [] hnote))).step
      (.member [] "SELECT" [] (.member [] "orderBy" [_] (.item [] [] horder)))
  exact ⟨hedits, hedits.compileJson_eq Compiler.standard, by with_unfolding_all rfl⟩

-- An object that stands for a word is no record: no key may be added to it.
example :
    let ordered (sort : List (String × Json)) : Json :=
      .object [("SELECT", .object [("from", .object [("ref", .array [.text "users"])]),
        ("orderBy", .array [.object [("ref", .array [.text "name"]), ("sort", .object sort)]])])]
    (compile (ordered [("desc", .null)])).result =
        .ok "SELECT *\nFROM \"users\"\nORDER BY \"name\" DESC" ∧
      (compile (ordered [("desc", .null), ("note", .null)])).result =
        .error (.validation .malformed) :=
  ⟨by with_unfolding_all rfl, by with_unfolding_all rfl⟩

end Queries

end QueryNotation
