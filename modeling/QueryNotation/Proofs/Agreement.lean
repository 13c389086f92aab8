import QueryNotation.Compiler
import QueryNotation.Proofs.Members

/-! The two ways to a valid query agree. One looks at the keys of the JSON value before reading it,
the other counts the statements and the other keys of the query that was read. Under every keyword
has to stand an object for that: a null is read as a statement that is missing, and an array as a
record, while the value itself is refused for either. -/

namespace QueryNotation

section Keywords

theorem Keyword.mem_all (k : Keyword) : k ∈ Keyword.all := by
  cases k <;> decide

theorem Keyword.ofText?_eq_some_iff {s : String} {k : Keyword} :
    Keyword.ofText? s = some k ↔ k.text = s := by
  constructor
  · intro h
    have htext := List.find?_some h
    exact of_decide_eq_true htext
  · rintro rfl
    exact k.ofText?_text

theorem eraseDups_of_nodup {l : List String} (h : l.Nodup) : l.eraseDups = l := by
  induction l with
  | nil => rfl
  | cons a l ih =>
    rw [List.nodup_cons] at h
    have hfilter : l.filter (fun b => !b == a) = l := by
      rw [List.filter_eq_self]
      intro b hb
      have hne : b ≠ a := fun heq => h.1 (heq ▸ hb)
      simpa using hne
    rw [List.eraseDups_cons, hfilter, ih h.2]

end Keywords

namespace Query

/-- The statement that a query holds under a keyword. -/
def under (q : Query) : Keyword → Option Statement
  | .select => q.select.map .select
  | .insert => q.insert.map .insert
  | .update => q.update.map .update
  | .delete => q.delete.map .delete
  | .upsert => q.upsert.map .upsert

section Keys

variable {q : Query} {keys : List String}

theorem keys_eq (q : Query) :
    q.keys = (Keyword.all.filter fun k => (q.under k).isSome).map Keyword.text ++ q.others := by
  obtain ⟨select, insert, update, delete, upsert, others⟩ := q
  cases select <;> cases insert <;> cases update <;> cases delete <;> cases upsert <;> rfl

theorem mem_otherKeys {key : String} :
    key ∈ otherKeys keys ↔ key ∈ keys ∧ Keyword.ofText? key = none := by
  simp [otherKeys, List.mem_mergeSort, List.mem_eraseDups]

theorem nodup_otherKeys (h : keys.Nodup) : (otherKeys keys).Nodup := by
  have hfilter : (keys.filter fun k => (Keyword.ofText? k).isNone).Nodup := h.filter _
  rw [otherKeys, (List.mergeSort_perm _ _).nodup_iff, eraseDups_of_nodup hfilter]
  exact hfilter

/-- A query that holds a statement for each keyword among `keys`, and the others of them besides,
has these keys. -/
theorem keys_perm (hnodup : keys.Nodup) (hunder : ∀ k, (q.under k).isSome ↔ k.text ∈ keys)
    (hothers : q.others = otherKeys keys) : q.keys.Perm keys := by
  have hkeywords : ((Keyword.all.filter fun k => (q.under k).isSome).map Keyword.text).Nodup :=
    (List.filter_sublist.map Keyword.text).nodup (by decide)
  have hapart : ∀ key ∈ (Keyword.all.filter fun k => (q.under k).isSome).map Keyword.text,
      ∀ key' ∈ otherKeys keys, key ≠ key' := by
    rintro key hkey key' hkey' rfl
    obtain ⟨k, -, hk⟩ := List.mem_map.mp hkey
    have hnone := (mem_otherKeys.mp hkey').2
    rw [Keyword.ofText?_eq_some_iff.mpr hk] at hnone
    cases hnone
  rw [keys_eq, hothers, List.perm_ext_iff_of_nodup
    (List.nodup_append.mpr ⟨hkeywords, nodup_otherKeys hnodup, hapart⟩) hnodup]
  intro key
  simp only [List.mem_append, List.mem_map, List.mem_filter, mem_otherKeys]
  constructor
  · rintro (⟨k, ⟨-, hk⟩, rfl⟩ | ⟨hkey, -⟩)
    · exact (hunder k).mp hk
    · exact hkey
  · intro hkey
    cases hk : Keyword.ofText? key with
    | none => exact .inr ⟨hkey, rfl⟩
    | some k =>
      rw [Keyword.ofText?_eq_some_iff] at hk
      subst hk
      exact .inl ⟨k, ⟨k.mem_all, (hunder k).mpr hkey⟩, rfl⟩

end Keys

section Parts

variable {v : Json} {members : List (String × Json)} {q : Query}

theorem object_of_ofJson? (h : form.ofJson? v = some q) : ∃ members, v = .object members := by
  cases v with
  | object members => exact ⟨members, rfl⟩
  | _ => cases h

/-- What a query holds: under each keyword the statement that the value of the key writes, and the
keys that are no keywords. -/
theorem under_of_ofJson? (h : form.ofJson? (.object members) = some q) :
    q.others = otherKeys ((lastWins members).map Prod.fst) ∧
      ∀ k, (q.under k = none ∧ ∀ body ∈ (Json.object members).get? k.text, body = .null) ∨
        ∃ body s, (Json.object members).get? k.text = some body ∧
          Statement.ofBody? k body = some s ∧ q.under k = some s := by
  change Query.ofReading? (Json.object members).reading = some q at h
  rw [ofReading?, Json.node_reading] at h
  simp only [Json.node, Node.map, Node.settle, Json.member?_reading, Option.bind_eq_bind,
    Option.bind_some, Option.bind_eq_some_iff, Option.some.injEq] at h
  obtain ⟨select, hselect, insert, hinsert, update, hupdate, delete, hdelete, upsert, hupsert,
    rfl⟩ := h
  have hkeys : (lastWins (members.map fun m => (m.1, m.2.reading))).map Prod.fst =
      (lastWins members).map Prod.fst := by
    rw [lastWins_map fun _ => Json.reading, List.map_map]
    rfl
  have hpart {α : Type} {f : Reading → Option α} {make : α → Statement} {o : Option α}
      {found : Option Json} (hread : optional? f (found.map Json.reading) = some o) :
      (o.map make = none ∧ ∀ body ∈ found, body = .null) ∨
        ∃ body s, found = some body ∧ (f body.reading).map make = some s ∧
          o.map make = some s := by
    rcases optional?_reading hread with ⟨rfl, hnull⟩ | ⟨body, x, hbody, -, hx, rfl⟩
    · exact .inl ⟨rfl, hnull⟩
    · exact .inr ⟨body, make x, hbody, by rw [hx, Option.map_some], rfl⟩
  refine ⟨congrArg otherKeys hkeys, fun k => ?_⟩
  cases k with
  | select => exact hpart hselect
  | insert => exact hpart hinsert
  | update => exact hpart hupdate
  | delete => exact hpart hdelete
  | upsert => exact hpart hupsert

end Parts

section Verdicts

variable {v : Json} {members : List (String × Json)} {q : Query}

/-- Under the keywords of a value stand neither nulls nor arrays. -/
def PlainBodies (v : Json) : Prop :=
  ∀ (k : Keyword) (body : Json), v.get? k.text = some body →
    body ≠ .null ∧ ∀ items, body ≠ .array items

theorem object_of_ofBody? {k : Keyword} {body : Json} {s : Statement}
    (h : Statement.ofBody? k body = some s) (harray : ∀ items, body ≠ .array items) :
    ∃ members, body = .object members := by
  cases body with
  | object members => exact ⟨members, rfl⟩
  | array items => exact absurd rfl (harray items)
  | _ => cases k <;> cases h

theorem keys_perm_of_ofJson? (h : form.ofJson? (.object members) = some q)
    (hplain : PlainBodies (.object members)) :
    q.keys.Perm ((lastWins members).map Prod.fst) := by
  obtain ⟨hothers, hunder⟩ := under_of_ofJson? h
  refine keys_perm (nodup_keys_lastWins members) (fun k => ?_) hothers
  have hlookup : (Json.object members).get? k.text = (lastWins members).lookup k.text :=
    (lookup_lastWins k.text members).symm
  rcases hunder k with ⟨hnone, hnull⟩ | ⟨body, s, hbody, -, hsome⟩
  · have hmissing : (lastWins members).lookup k.text = none := by
      rw [← hlookup, Option.eq_none_iff_forall_ne_some]
      intro body hbody
      exact (hplain k body hbody).1 (hnull body hbody)
    rw [hnone, ← lookup_isSome_iff_mem, hmissing]
    rfl
  · rw [hlookup] at hbody
    rw [hsome, ← lookup_isSome_iff_mem, hbody]
    rfl

theorem validateTop_of_length (h : (lastWins members).length ≠ 1) :
    validateTop (.object members) = .error .keyCount := by
  have hnode : (Json.object members).node.settle = .object (lastWins members) := rfl
  rw [validateTop, hnode]
  split
  · rename_i heq
    rw [Node.object.inj heq] at h
    exact absurd rfl h
  · rfl
  · rename_i hobject
    exact absurd rfl (hobject _)

theorem validateTop_of_unknown {key : String} {body : Json}
    (h : lastWins members = [(key, body)]) (hk : Keyword.ofText? key = none) :
    validateTop (.object members) = .error (.unknownStatement key) := by
  have hnode : (Json.object members).node.settle = .object [(key, body)] := congrArg Node.object h
  simp only [validateTop, hnode, hk]
  rfl

theorem validateTop_of_object {k : Keyword} {ms : List (String × Json)}
    (h : lastWins members = [(k.text, .object ms)]) : validateTop (.object members) = .ok () := by
  have hnode : (Json.object members).node.settle = .object [(k.text, .object ms)] :=
    congrArg Node.object h
  simp only [validateTop, hnode, k.ofText?_text]
  rfl

theorem ofValidJson_of_top_error {e : ValidationError} (htop : validateTop v = .error e) :
    ofValidJson v = .error e := by
  rw [ofValidJson, htop]
  rfl

theorem ofValidJson_of_top_ok (htop : validateTop v = .ok ()) (h : form.ofJson? v = some q) :
    ofValidJson v = q.validate.map fun _ => q := by
  rw [ofValidJson, htop, h]
  change (q.validate >>= fun _ => pure q) = _
  cases q.validate <;> rfl

theorem validate_of_length_keys (h : q.keys.length ≠ 1) : q.validate = .error .keyCount := by
  rw [validate, if_pos h]
  rfl

theorem validate_of_unknown {key : String} (hkeys : q.keys = [key]) (hothers : q.others = [key]) :
    q.validate = .error (.unknownStatement key) := by
  rw [validate, if_neg (by simp [hkeys]), hothers]
  rfl

/-- Whether the keys are looked at before or after a value is read, the verdict is the same. -/
theorem ofValidJson_eq_validate (h : form.ofJson? v = some q) (hplain : PlainBodies v) :
    ofValidJson v = q.validate.map fun _ => q := by
  obtain ⟨members, rfl⟩ := object_of_ofJson? h
  have hperm := keys_perm_of_ofJson? h hplain
  obtain ⟨hothers, hunder⟩ := under_of_ofJson? h
  by_cases hlength : (lastWins members).length = 1
  · obtain ⟨⟨key, body⟩, hsingle⟩ := List.length_eq_one_iff.mp hlength
    rw [hsingle, List.map_singleton] at hothers hperm
    have hkeys : q.keys = [key] := List.perm_singleton.mp hperm
    cases hk : Keyword.ofText? key with
    | none =>
      have hothers' : q.others = [key] := by
        simpa [otherKeys, hk, eraseDups_of_nodup] using hothers
      rw [ofValidJson_of_top_error (validateTop_of_unknown hsingle hk),
        validate_of_unknown hkeys hothers']
      rfl
    | some k =>
      rw [Keyword.ofText?_eq_some_iff] at hk
      subst hk
      have hbody : (Json.object members).get? k.text = some body := by
        rw [Json.get?, ← lookup_lastWins, hsingle, lookup_cons_ite, if_pos rfl]
      have hstatement : ∃ s, Statement.ofBody? k body = some s := by
        rcases hunder k with ⟨-, hnull⟩ | ⟨body', s, hbody', hs, -⟩
        · exact absurd (hnull body hbody) (hplain k body hbody).1
        · rw [hbody, Option.some.injEq] at hbody'
          exact ⟨s, hbody' ▸ hs⟩
      obtain ⟨s, hs⟩ := hstatement
      obtain ⟨ms, rfl⟩ := object_of_ofBody? hs (hplain k body hbody).2
      exact ofValidJson_of_top_ok (validateTop_of_object hsingle) h
  · have hlength' : q.keys.length ≠ 1 := by
      rwa [hperm.length_eq, List.length_map]
    rw [ofValidJson_of_top_error (validateTop_of_length hlength),
      validate_of_length_keys hlength']
    rfl

end Verdicts

end Query

section Compiling

theorem Compiler.compileJson_of_ofValidJson {v : Json} {q : Query}
    (h : Query.ofValidJson v = q.validate.map fun _ => q) (c : Compiler) :
    (c.compileJson v).result = (c.compileQuery q).result.map Compiled.sql := by
  rw [compileJson, h]
  cases hvalid : q.validate with
  | error e =>
    rw [compileQuery, hvalid]
    rfl
  | ok u => rfl

/-- A JSON value and the query that it writes are found valid, or refused for the same reason, and
compiled to the same text or the same failure. -/
theorem Query.verdict_of_ofJson? {v : Json} {q : Query} (h : Query.form.ofJson? v = some q)
    (hplain : Query.PlainBodies v) :
    (Query.ofValidJson v = q.validate.map fun _ => q) ∧
      ∀ c : Compiler, (c.compileJson v).result = (c.compileQuery q).result.map Compiled.sql := by
  have hverdict := Query.ofValidJson_eq_validate h hplain
  exact ⟨hverdict, Compiler.compileJson_of_ofValidJson hverdict⟩

/-- A delete beside a key that is no keyword and has no value. -/
def deleteWithNote : Json :=
  .object [
    (Keyword.delete.text, .object [("delete", .object [("ref", .array [.text "A"])])]),
    ("note", .null)]

theorem deleteWithNote_verdict :
    (∃ q, Query.form.ofJson? deleteWithNote = some q ∧ q.validate = .error .keyCount ∧
      Query.ofValidJson deleteWithNote = (q.validate.map fun _ => q) ∧
      ∀ c : Compiler,
        (c.compileJson deleteWithNote).result = (c.compileQuery q).result.map Compiled.sql) := by
  have h : Query.form.ofJson? deleteWithNote = some {
      select := none, insert := none, update := none, upsert := none, others := ["note"],
      delete := some ⟨some ⟨["A"], none, none, false⟩, none⟩ } := by
    with_unfolding_all rfl
  have hplain : Query.PlainBodies deleteWithNote := by
    intro k body hbody
    cases k with
    | delete =>
      cases hbody
      exact ⟨nofun, nofun⟩
    | _ => cases hbody
  exact ⟨_, h, rfl, Query.verdict_of_ofJson? h hplain⟩

end Compiling

end QueryNotation
